/-
What a call of the SQLite store returns and leaves, with nothing failing and
the clock standing at `now`.

A session is stored as a row (`rowOf`) and a row read as a session
(`SqlRow.session`). The row of a session is read back as that session exactly
if its times are within what `strptime` reads (`session_rowOf`), so a session
that could be stored is found again exactly then (`sqlite_roundTrip_iff`).
-/
import OpenDbsc.RedisSpec
import OpenDbsc.Sqlite

namespace OpenDbsc

open Effects Prog

/-! ## With every allocation succeeding -/

@[simp] theorem assuming_sqlBind (n : Nat) : (sqlBind n).assuming allocOk = pure true := by
  induction n with
  | zero => rfl
  | succ n ih => simp [sqlBind, ih]

@[simp] theorem assuming_sqlPrepare : sqlPrepare.assuming allocOk = pure true := assuming_libraryAlloc

@[simp] theorem assuming_sqlPrepared (n : Nat) : (sqlPrepared n).assuming allocOk = pure true := by
  simp [sqlPrepared]

/-- The text of `expires_at`, or null; nothing when it cannot be printed. -/
def expiresText (session : Session) : Option (Option CStr) :=
  if session.hasExpires then (formatRfc3339Utc session.expiresAt sqlTimeBuf).map some else some none

@[simp] theorem assuming_sqlBindExpires (session : Session) :
    (sqlBindExpires session).assuming allocOk = pure (expiresText session) := by
  unfold sqlBindExpires expiresText
  split
  · split
    · rename_i hnone
      rw [hnone]
      rfl
    · rename_i hsome
      rw [hsome]
      simp
  · simp

/-- The session of the columns but for the times. -/
def SqlRow.columns (row : SqlRow) : Option Session :=
  let (rc, session) := sessionSetStateStr { sessionInit with id := some row.id, userId := some row.userId } row.state
  if rc ≠ 0 then none
  else some { session with publicKey := row.publicKey, algorithm := row.algorithm, challenge := row.challenge }

/-- The session a row is read as. -/
def SqlRow.session (row : SqlRow) : Option Session := row.columns.bind (sessionSetTimes row)

@[simp] theorem assuming_sessionSetColumns (row : SqlRow) :
    (sessionSetColumns row).assuming allocOk = pure row.columns := by
  unfold sessionSetColumns SqlRow.columns
  simp only [assuming_bind, assuming_sessionSetId, assuming_sessionSetUserId, pure_bind, ne_eq, not_true_eq_false,
    if_false]
  split
  · rfl
  · simp

@[simp] theorem assuming_sessionFromStmt (row : SqlRow) :
    (sessionFromStmt row).assuming allocOk = pure row.session := by
  unfold sessionFromStmt SqlRow.session
  rw [assuming_bind, assuming_sessionSetColumns, pure_bind]
  cases row.columns <;> rfl

/-! ## Rows and sessions -/

theorem sessionSetStateStr_leaves (s : Session) (state : CStr) :
    (sessionSetStateStr s state).2.id = s.id ∧ (sessionSetStateStr s state).2.userId = s.userId ∧
      (sessionSetStateStr s state).2.hasExpires = s.hasExpires := by
  unfold sessionSetStateStr
  split
  · exact ⟨rfl, rfl, rfl⟩
  · split <;> exact ⟨rfl, rfl, rfl⟩

theorem SqlRow.columns_leaves {row : SqlRow} {s : Session} (h : row.columns = some s) :
    s.id = some row.id ∧ s.userId = some row.userId ∧ s.hasExpires = false := by
  unfold columns at h
  simp only [Option.ite_none_left_eq_some, Option.some.injEq] at h
  obtain ⟨-, rfl⟩ := h
  exact sessionSetStateStr_leaves _ _

/-- The session of a row has its id and user, and the times its texts say. -/
theorem SqlRow.session_some {row : SqlRow} {s : Session} (h : row.session = some s) :
    s.id = some row.id ∧ s.userId = some row.userId ∧
      (s.hasExpires = true → ∃ text, row.expiresAt = some text ∧ parseRfc3339Utc text = some s.expiresAt) ∧
      parseRfc3339Utc row.createdAt = some s.createdAt := by
  obtain ⟨base, hbase, h⟩ := Option.bind_eq_some_iff.mp h
  obtain ⟨timed, htimed, h⟩ := Option.bind_eq_some_iff.mp h
  obtain ⟨created, hcreated, hs⟩ := Option.bind_eq_some_iff.mp h
  obtain rfl := Option.some.inj hs
  obtain ⟨hid, huser, hhas⟩ := columns_leaves hbase
  unfold sessionSetExpires at htimed
  split at htimed
  · obtain rfl := Option.some.inj htimed
    refine ⟨hid, huser, fun h => ?_, hcreated⟩
    cases hhas.symm.trans h
  · rename_i text htext
    obtain ⟨e, hparse, rfl⟩ := Option.map_eq_some_iff.mp htimed
    exact ⟨hid, huser, fun _ => ⟨text, htext, hparse⟩, hcreated⟩

theorem SqlDb.mem_of_find {db : SqlDb} {id : CStr} {row : SqlRow} (h : db.find id = some row) :
    row ∈ db.rows ∧ row.id = id := by
  unfold find at h
  exact ⟨List.mem_of_find?_eq_some h, by simpa using List.find?_some h⟩

theorem SqlDb.unique {db : SqlDb} {row row' : SqlRow} (h : row ∈ db.rows) (h' : row' ∈ db.rows)
    (hid : row.id = row'.id) :
    row = row' := List.inj_on_of_nodup_map db.nodup h h' hid

/-- The row a session is stored as. -/
def rowOf (session : Session) : Option SqlRow := do
  let id ← session.id
  let expiresAt ← expiresText session
  let createdAt ← formatRfc3339Utc session.createdAt sqlTimeBuf
  SqlDb.newRow id (sqlValues session expiresAt) createdAt

/-- The times can be printed. -/
def Printable (session : Session) : Prop :=
  Formattable session.createdAt ∧ (session.hasExpires = true → Formattable session.expiresAt)

/-- The times are read back. -/
def Readable (session : Session) : Prop :=
  Parseable session.createdAt ∧ (session.hasExpires = true → Parseable session.expiresAt)

theorem expiresText_isSome {session : Session} :
    (expiresText session).isSome = true ↔ (session.hasExpires = true → Formattable session.expiresAt) := by
  unfold expiresText
  rw [← format_isSome]
  cases session.hasExpires with
  | true => simp [sqlTimeBuf]
  | false => simp

theorem rowOf_isSome {session : Session} (hid : session.id ≠ none) (huser : session.userId ≠ none) :
    (rowOf session).isSome = true ↔ Printable session := by
  obtain ⟨id, hid⟩ := Option.ne_none_iff_exists'.mp hid
  obtain ⟨userId, huser⟩ := Option.ne_none_iff_exists'.mp huser
  unfold rowOf Printable
  rw [← expiresText_isSome, ← format_isSome, hid]
  cases expiresText session with
  | none => simp
  | some expiresAt => cases hcreated : formatRfc3339Utc session.createdAt 32 <;> simp [hcreated, sqlTimeBuf, SqlDb.newRow, sqlValues, huser]

/-- `row` has the session's values, `created_at` apart. -/
structure StoresValues (session : Session) (row : SqlRow) : Prop where
  id : session.id = some row.id
  userId : session.userId = some row.userId
  state : row.state = sessionStateStr session
  publicKey : row.publicKey = session.publicKey
  algorithm : row.algorithm = session.algorithm
  challenge : row.challenge = session.challenge
  expiresAt : expiresText session = some row.expiresAt

/-- `row` is the row of the session. -/
structure Stores (session : Session) (row : SqlRow) : Prop extends StoresValues session row where
  createdAt : formatRfc3339Utc session.createdAt sqlTimeBuf = some row.createdAt

theorem stores_of_rowOf {session : Session} {row : SqlRow} (h : rowOf session = some row) : Stores session row := by
  unfold rowOf at h
  obtain ⟨id, hid, h⟩ := Option.bind_eq_some_iff.mp h
  obtain ⟨expiresAt, hexpires, h⟩ := Option.bind_eq_some_iff.mp h
  obtain ⟨createdAt, hcreated, h⟩ := Option.bind_eq_some_iff.mp h
  obtain ⟨userId, huser, rfl⟩ := Option.map_eq_some_iff.mp h
  exact ⟨⟨hid, huser, rfl, rfl, rfl, rfl, hexpires⟩, hcreated⟩

theorem sessionSetStateStr_state (session s : Session) :
    sessionSetStateStr s (sessionStateStr session) = (0, { s with state := session.state }) := by
  unfold sessionStateStr
  cases session.state <;> rfl

theorem StoresValues.columns {session : Session} {row : SqlRow} (h : StoresValues session row) :
    row.columns = some { session with expiresAt := 0, hasExpires := false, createdAt := 0 } := by
  unfold SqlRow.columns
  rw [h.state, sessionSetStateStr_state, h.publicKey, h.algorithm, h.challenge, ← h.id, ← h.userId]
  rfl

/-- The expiry is read back exactly if it is parseable. -/
theorem StoresValues.expires {session : Session} {row : SqlRow} (h : StoresValues session row)
    (hexp : session.hasExpires = (session.expiresAt != 0)) (createdAt : Int) :
    let base : Session := { session with expiresAt := 0, hasExpires := false, createdAt }
    (session.hasExpires = true → Parseable session.expiresAt) ∧
        sessionSetExpires base row.expiresAt = some { session with createdAt } ∨
      ¬ (session.hasExpires = true → Parseable session.expiresAt) ∧ sessionSetExpires base row.expiresAt = none := by
  have htext := h.expiresAt
  unfold expiresText at htext
  cases hhas : session.hasExpires with
  | false =>
    rw [hhas, if_neg Bool.false_ne_true] at htext
    have hzero : session.expiresAt = 0 := by simpa [hhas] using hexp
    rw [← Option.some.inj htext, ← hhas, ← hzero]
    exact .inl ⟨fun hc => absurd (hc.symm.trans hhas) Bool.true_eq_false.mp, rfl⟩
  | true =>
    rw [hhas, if_pos rfl] at htext
    obtain ⟨text, hformat, htext⟩ := Option.map_eq_some_iff.mp htext
    simp only [← htext, sessionSetExpires, forall_const]
    rcases parse_format hformat with ⟨hparseable, hparse⟩ | ⟨hnot, hparse⟩
    · refine .inl ⟨hparseable, ?_⟩
      rw [hparse, Option.map_some, sessionSetExpiresAt, ← hexp, hhas]
    · rw [hparse]
      exact .inr ⟨hnot, rfl⟩

/-- A row with the session's values and its `created_at` is read as the session. -/
theorem StoresValues.session {session : Session} {row : SqlRow} (h : StoresValues session row)
    (hexp : session.hasExpires = (session.expiresAt != 0))
    (hexpires : session.hasExpires = true → Parseable session.expiresAt)
    (hcreated : parseRfc3339Utc row.createdAt = some session.createdAt) : row.session = some session := by
  unfold SqlRow.session
  rw [h.columns, Option.bind_some, sessionSetTimes]
  rcases h.expires hexp 0 with ⟨-, hset⟩ | ⟨hnot, -⟩
  · rw [hset, hcreated]
    rfl
  · exact absurd hexpires hnot

/-- **A stored session is read back exactly if its times are.** -/
theorem Stores.session {session : Session} {row : SqlRow} (h : Stores session row)
    (hexp : session.hasExpires = (session.expiresAt != 0)) :
    Readable session ∧ row.session = some session ∨ ¬ Readable session ∧ row.session = none := by
  rcases parse_format h.createdAt with ⟨hcreated, hparse⟩ | ⟨hnot, hparse⟩
  · by_cases hexpires : session.hasExpires = true → Parseable session.expiresAt
    · exact .inl ⟨⟨hcreated, hexpires⟩, h.toStoresValues.session hexp hexpires hparse⟩
    · refine .inr ⟨fun hread => hexpires hread.2, ?_⟩
      rw [SqlRow.session, h.columns, Option.bind_some, sessionSetTimes]
      rcases h.expires hexp 0 with ⟨hyes, -⟩ | ⟨-, hset⟩
      · exact absurd hyes hexpires
      · rw [hset]
        rfl
  · refine .inr ⟨fun hread => hnot hread.1, ?_⟩
    rw [SqlRow.session, h.columns, Option.bind_some, sessionSetTimes, hparse]
    cases sessionSetExpires _ row.expiresAt <;> rfl

/-! ## One statement -/

/-- The clock stands at `now`, and no allocation fails. -/
def Still (now : Int) (e : Event Sys) : Prop := (∀ r, readingOf e = some r → r = now) ∧ AllocsSucceed e

section

variable {now : Int}

theorem still_time {r : Int} : Still now ⟨.time, r⟩ ↔ r = now := by
  constructor
  · exact fun h => h.1 r rfl
  · rintro rfl
    exact ⟨fun r hr => (Option.some.inj hr).symm, fun x hx => nomatch hx⟩

theorem still_alloc {o : Sys.Op} {x y : Sys.Ans o} (h : allocOk o = some x) : Still now ⟨o, y⟩ ↔ y = x := by
  constructor
  · exact fun hs => hs.2 x h
  · rintro rfl
    refine ⟨fun r hr => ?_, fun z hz => Option.some.inj (h.symm.trans hz)⟩
    cases o with
    | time => cases h
    | _ => cases hr

variable {α σ : Type} {T : Sig} {B : Comp Sys T σ} {st : σ}

/-- What only allocates returns what it returns when it can. -/
theorem total_still {p : Prog Sys α} {a : α} (hp : p.assuming allocOk = pure a) {Q : α → σ → Prop} :
    Total (Still now) B p.lift Q st ↔ Q a st := by
  rw [total_lift, ← returns_assuming fun _ _ _ h => still_alloc h, hp, returns_pure]

theorem total_time {Q : Int → σ → Prop} : Total (Still now) B time.lift Q st ↔ Q now st := by
  rw [total_lift]
  constructor
  · exact fun h => h.2 now (still_time.mpr rfl)
  · exact fun h => ⟨⟨now, still_time.mpr rfl⟩, fun r hr => (still_time.mp hr).symm ▸ h⟩

end

theorem SqlOp.reorders_iff {o : SqlOp} {x y : o.Ans} (h : ∀ userId, o ≠ .selectByUserId userId) :
    Reorders o x y ↔ y = x := by
  constructor
  · intro hr
    cases hr with
    | refl => rfl
    | rows => exact absurd rfl (h _)
  · rintro rfl
    exact .refl _

theorem SqlOp.reorders_rows {userId : CStr} {xs : List SqlRow} {y : SqlOp.Ans (.selectByUserId userId)} :
    Reorders (.selectByUserId userId) (xs, true) y ↔ ∃ ys, xs.Perm ys ∧ y = (ys, true) := by
  constructor
  · intro hr
    cases hr with
    | refl => exact ⟨xs, .refl xs, rfl⟩
    | rows h => exact ⟨_, h, rfl⟩
  · rintro ⟨ys, h, rfl⟩
    exact .rows h

section

variable {φ : Event Sys → Prop} {db : SqlDb} {o : SqlOp} {Q : o.Ans → SqlDb → Prop}

theorem total_statement : Total φ sqlServer (sqlStep o) Q db ↔
    ∀ x, SqlOp.Reorders o (db.answer o).1 x → Q x (db.answer o).2 := by
  rw [sqlStep, total_call]
  constructor
  · intro h x hx
    exact h [] x _ ⟨rfl, rfl, hx⟩ fun e he => (List.not_mem_nil he).elim
  · intro h tr x db' hserve _
    obtain ⟨rfl, rfl, hx⟩ := hserve
    exact h x hx

theorem total_sqlStep (ho : ∀ userId, o ≠ .selectByUserId userId) :
    Total φ sqlServer (sqlStep o) Q db ↔ Q (db.answer o).1 (db.answer o).2 := by
  rw [total_statement]
  simp only [SqlOp.reorders_iff ho, forall_eq]

theorem total_insert {id : CStr} {values : SqlValues} {createdAt : CStr} {Q : Bool → SqlDb → Prop} :
    Total φ sqlServer (sqlStep (.insert id values createdAt)) Q db ↔ match SqlDb.newRow id values createdAt with
      | none => Q false db
      | some row => if h : db.find row.id = none then Q true (db.insertRow row h) else Q false db := by
  rw [total_sqlStep fun _ => SqlOp.noConfusion]
  cases hrow : SqlDb.newRow id values createdAt with
  | none => simp only [SqlDb.answer, hrow]
  | some row =>
    simp only [SqlDb.answer, hrow]
    split <;> exact Iff.rfl

end

/-! ## The store's calls, with nothing failing -/

section

variable {now : Int} {db : SqlDb}

theorem total_sqliteCreate {session : Session} {Q : Int → SqlDb → Prop} :
    Total (Still now) sqlServer (sqliteCreate session) Q db ↔ match rowOf session with
      | none => Q (-1) db
      | some row => if h : db.find row.id = none then Q 0 (db.insertRow row h) else Q (-1) db := by
  unfold sqliteCreate rowOf
  cases session.id with
  | none => exact Iff.rfl
  | some id =>
    simp only [total_bind]
    rw [total_still (assuming_sqlPrepared 6)]
    simp only [Bool.not_true, Bool.false_eq_true, if_false, total_bind]
    rw [total_still (assuming_sqlBindExpires session)]
    cases expiresText session with
    | none => exact Iff.rfl
    | some expiresAt =>
      cases formatRfc3339Utc session.createdAt sqlTimeBuf with
      | none => exact Iff.rfl
      | some createdAt =>
        simp only [total_bind]
        rw [total_still (assuming_sqlBind 1)]
        simp only [Bool.not_true, Bool.false_eq_true, if_false, total_bind]
        rw [total_insert]
        simp only [Option.bind_eq_bind, Option.bind_some]
        cases SqlDb.newRow id (sqlValues session expiresAt) createdAt with
        | none => exact Iff.rfl
        | some row =>
          simp only
          split <;> exact Iff.rfl

theorem total_sqliteDelete {id : CStr} {Q : Int → SqlDb → Prop} :
    Total (Still now) sqlServer (sqliteDelete id) Q db ↔ Q 0 (db.deleteWhere fun row => row.id == id) := by
  unfold sqliteDelete
  simp only [total_bind]
  rw [total_still (assuming_sqlPrepared 1)]
  simp only [Bool.not_true, Bool.false_eq_true, if_false, total_bind]
  rw [total_sqlStep fun _ => SqlOp.noConfusion]
  exact Iff.rfl

theorem total_sqliteGet {id : CStr} {Q : Option Session → SqlDb → Prop} :
    Total (Still now) sqlServer (sqliteGet id) Q db ↔ match (db.find id).bind SqlRow.session with
      | none => Q none db
      | some session =>
        if session.expiredAt now then Q none (db.deleteWhere fun row => row.id == id) else Q (some session) db := by
  unfold sqliteGet
  simp only [total_bind]
  rw [total_still (assuming_sqlPrepared 1)]
  simp only [Bool.not_true, Bool.false_eq_true, if_false, total_bind]
  rw [total_sqlStep fun _ => SqlOp.noConfusion]
  simp only [SqlDb.answer]
  cases db.find id with
  | none => exact Iff.rfl
  | some row =>
    simp only [total_bind, Option.bind_some]
    rw [total_still (assuming_malloc _)]
    simp only [Bool.not_true, Bool.false_eq_true, if_false, total_bind]
    rw [total_still (assuming_sessionFromStmt row)]
    cases row.session with
    | none => exact Iff.rfl
    | some session =>
      simp only [total_bind]
      rw [total_time]
      show Total _ _ (if session.expiredAt now = true then _ else _) _ _ ↔ _
      cases session.expiredAt now with
      | false => exact Iff.rfl
      | true =>
        simp only [if_true, total_bind]
        rw [total_sqliteDelete]
        exact Iff.rfl

theorem total_sqliteUpdate {session : Session} {id userId : CStr} (hid : session.id = some id)
    (huser : session.userId = some userId) {Q : Int → SqlDb → Prop} :
    Total (Still now) sqlServer (sqliteUpdate session) Q db ↔ match expiresText session with
      | none => Q (-1) db
      | some expiresAt => match db.find id with
        | none => Q (-1) db
        | some _ => Q 0 (db.updateRow id userId (sqlValues session expiresAt)) := by
  unfold sqliteUpdate
  simp only [hid, total_bind]
  rw [total_still (assuming_sqlPrepared 5)]
  simp only [Bool.not_true, Bool.false_eq_true, if_false, total_bind]
  rw [total_still (assuming_sqlBindExpires session)]
  cases expiresText session with
  | none => exact Iff.rfl
  | some expiresAt =>
    simp only [total_bind]
    rw [total_still (assuming_sqlBind 1)]
    simp only [Bool.not_true, Bool.false_eq_true, if_false, total_bind]
    rw [total_sqlStep fun _ => SqlOp.noConfusion]
    have hvalues : (sqlValues session expiresAt).userId = some userId := huser
    cases hfind : db.find id with
    | none =>
      simp only [SqlDb.answer, hfind]
      exact Iff.rfl
    | some row =>
      simp only [SqlDb.answer, hfind, hvalues]
      exact Iff.rfl

theorem SqlDb.deleteWhere_deleteWhere (db : SqlDb) (p q : SqlRow → Bool) :
    (db.deleteWhere p).deleteWhere q = db.deleteWhere fun row => p row || q row := by
  refine SqlDb.ext ?_
  show (db.rows.filter _).filter _ = db.rows.filter _
  rw [List.filter_filter]
  refine List.filter_congr fun row _ => ?_
  rw [Bool.not_or, Bool.and_comm]

theorem total_sqliteDeleteEach {ids : List CStr} {Q : Unit → SqlDb → Prop} :
    Total (Still now) sqlServer (sqliteDeleteEach ids) Q db ↔
      Q () (db.deleteWhere fun row => decide (row.id ∈ ids)) := by
  induction ids generalizing db with
  | nil =>
    have hsame : (db.deleteWhere fun row => decide (row.id ∈ ([] : List CStr))) = db :=
      SqlDb.ext (List.filter_eq_self.mpr fun _ _ => by simp)
    rw [hsame]
    exact Iff.rfl
  | cons id rest ih =>
    unfold sqliteDeleteEach
    rw [total_bind, total_sqliteDelete, ih, SqlDb.deleteWhere_deleteWhere]
    have hrows : (fun row : SqlRow => row.id == id || decide (row.id ∈ rest)) =
        fun row => decide (row.id ∈ id :: rest) := by
      funext row
      rw [Bool.eq_iff_iff]
      simp
    rw [hrows]

/-- Rows that can all be read are sorted into the sessions and the ids of those that have expired. -/
theorem assuming_sqliteCollect {rows : List SqlRow} {ss : List Session} (h : rows.map SqlRow.session = ss.map some)
    (sessions : List Session) (expired : List CStr) :
    (sqliteCollect now rows sessions expired).assuming allocOk =
      pure (some (sessions ++ ss.filter (fun s => !s.expiredAt now),
        expired ++ (ss.filter fun s => s.expiredAt now).filterMap Session.id)) := by
  induction rows generalizing ss sessions expired with
  | nil =>
    obtain rfl := List.map_eq_nil_iff.mp h.symm
    simp [sqliteCollect]
  | cons row rest ih =>
    obtain ⟨s, ss, rfl⟩ : ∃ s ss', ss = s :: ss' := by
      cases ss with
      | nil => cases h
      | cons s ss' => exact ⟨s, ss', rfl⟩
    rw [List.map_cons, List.map_cons, List.cons.injEq] at h
    obtain ⟨hrow, hrest⟩ := h
    have hid := (SqlRow.session_some hrow).1
    unfold sqliteCollect
    rw [assuming_bind, assuming_sessionFromStmt, hrow, pure_bind]
    have hexpired : sqlExpired s now = s.expiredAt now := rfl
    simp only [hexpired]
    cases hexp : s.expiredAt now with
    | true =>
      simp only [if_true, sqlCopyId, hid, assuming_bind, assuming_strdup, pure_bind, assuming_malloc, Bool.not_true,
        Bool.false_eq_true, if_false]
      rw [ih hrest]
      simp [hexp, hid]
    | false =>
      simp only [Bool.false_eq_true, if_false, assuming_bind, assuming_malloc, pure_bind, Bool.not_true]
      rw [ih hrest]
      simp [hexp]

/-- Rows that can all be read can be in any other order. -/
theorem sessions_of_perm {rows rows' : List SqlRow} {ss : List Session} (h : rows.map SqlRow.session = ss.map some)
    (hperm : rows.Perm rows') : ∃ ss' : List Session, ss'.Perm ss ∧ rows'.map SqlRow.session = ss'.map some := by
  have hfound : rows.filterMap SqlRow.session = ss := by
    have hmapped : (rows.map SqlRow.session).filterMap id = (ss.map some).filterMap id := congrArg _ h
    rw [List.filterMap_map, List.filterMap_map] at hmapped
    exact hmapped.trans List.filterMap_some
  refine ⟨rows'.filterMap SqlRow.session, ?_, ?_⟩
  · rw [← hfound]
    exact (hperm.filterMap _).symm
  · have hsome : ∀ row ∈ rows', (row.session).isSome = true := by
      intro row hrow
      have hmem : row.session ∈ ss.map some := h ▸ List.mem_map_of_mem (hperm.mem_iff.mpr hrow)
      obtain ⟨s, -, hs⟩ := List.mem_map.mp hmem
      rw [← hs]
      rfl
    clear hfound hperm
    induction rows' with
    | nil => rfl
    | cons row rest ih =>
      obtain ⟨s, hs⟩ := Option.isSome_iff_exists.mp (hsome row List.mem_cons_self)
      rw [List.filterMap_cons_some hs, List.map_cons, List.map_cons, hs, ih fun row' h' =>
        hsome row' (List.mem_cons_of_mem _ h')]

theorem total_sqliteGetByUserId {userId : CStr} {Q : Option (List Session) → SqlDb → Prop} {ss : List Session}
    (h : (db.rows.filter fun row => row.userId == userId).map SqlRow.session = ss.map some)
    (hQ : ∀ found : List Session, found.Perm ss → Q (some (found.filter fun s => !s.expiredAt now))
      (db.deleteWhere fun row => decide (row.id ∈ (found.filter fun s => s.expiredAt now).filterMap Session.id))) :
    Total (Still now) sqlServer (sqliteGetByUserId userId) Q db := by
  unfold sqliteGetByUserId
  simp only [total_bind]
  rw [total_still assuming_sqlPrepare]
  simp only [Bool.not_true, Bool.false_eq_true, if_false, total_bind]
  rw [total_still (assuming_sqlBind 1)]
  simp only [Bool.not_true, Bool.false_eq_true, if_false, total_bind]
  rw [total_time, total_statement]
  intro x hx
  obtain ⟨rows, hperm, rfl⟩ := SqlOp.reorders_rows.mp hx
  obtain ⟨found, hfound, hsessions⟩ := sessions_of_perm h hperm
  simp only
  rw [total_still (assuming_sqliteCollect hsessions [] [])]
  simp only [List.nil_append, Bool.not_true, Bool.false_eq_true, if_false, total_bind]
  rw [total_sqliteDeleteEach]
  exact hQ found hfound

theorem total_sqliteDeleteByUserId {userId : CStr} {Q : Int → SqlDb → Prop} :
    Total (Still now) sqlServer (sqliteDeleteByUserId userId) Q db ↔
      Q 0 (db.deleteWhere fun row => row.userId == userId) := by
  unfold sqliteDeleteByUserId
  simp only [total_bind]
  rw [total_still (assuming_sqlPrepared 1)]
  simp only [Bool.not_true, Bool.false_eq_true, if_false, total_bind]
  rw [total_sqlStep fun _ => SqlOp.noConfusion]
  exact Iff.rfl

end

/-! ## What create accepts -/

/-- What is bound for the expiry, if memory lasts. -/
theorem ensures_sqlBindExpires (session : Session) :
    Ensures (sqlBindExpires session) fun out => ∀ expiresAt, out = some expiresAt →
      expiresText session = some expiresAt := by
  have hbind : ∀ bound : Option CStr, expiresText session = some bound →
      Ensures (sqlBind 1 >>= fun b => if !b then pure none else pure (some bound)) fun out =>
        ∀ expiresAt, out = some expiresAt → expiresText session = some expiresAt := by
    intro bound hbound
    refine Ensures.bind_any fun b => ?_
    cases b with
    | false => exact Ensures.pure fun expiresAt h => nomatch h
    | true => exact Ensures.pure fun expiresAt h => hbound.trans h
  unfold sqlBindExpires
  unfold expiresText at hbind ⊢
  split
  · rename_i hhas
    rw [if_pos hhas] at hbind
    split
    · exact Ensures.pure fun expiresAt h => nomatch h
    · rename_i text hformat
      exact hbind (some text) (by rw [hformat]; rfl)
  · rename_i hhas
    rw [if_neg hhas] at hbind
    exact hbind none rfl

theorem sqlConnection_inserted {id : CStr} {values : SqlValues} {createdAt : CStr} {db db' : SqlDb}
    {tr : List (Event Sys)}
    (h : sqlConnection (.insert id values createdAt) db tr true db') :
    ∃ row, SqlDb.newRow id values createdAt = some row ∧ ∃ hnew : db.find row.id = none,
      db' = db.insertRow row hnew := by
  rcases h with ⟨-, rfl, hreorders⟩ | ⟨-, -, hfails⟩
  · have hdone := (SqlOp.reorders_iff fun _ => SqlOp.noConfusion).mp hreorders
    cases hrow : SqlDb.newRow id values createdAt with
    | none =>
      simp only [SqlDb.answer, hrow] at hdone
      cases hdone
    | some row =>
      simp only [SqlDb.answer, hrow] at hdone ⊢
      split at hdone
      · rename_i hnew
        exact ⟨row, rfl, hnew, by rw [dif_pos hnew]⟩
      · cases hdone
  · cases hfails

/-- What create answers 0 for is stored as its row, whatever may have failed. -/
theorem sqliteCreate_zero {session : Session} {db db' : SqlDb} {tr : List (Event (Sys.sum SqlSig))}
    (h : Exec sqlConnection (sqliteCreate session) db tr 0 db') :
    ∃ row, rowOf session = some row ∧ ∃ hnew : db.find row.id = none, db' = db.insertRow row hnew := by
  unfold sqliteCreate at h
  unfold rowOf
  have hfailed : ∀ {tr st st'}, ¬ Exec sqlConnection (pure (-1) : SqlProg Int) st tr 0 st' :=
    fun h => nomatch (exec_pure.mp h).2.1
  cases hid : session.id with
  | none =>
    rw [hid] at h
    exact absurd h hfailed
  | some id =>
    simp only [hid] at h
    obtain ⟨_, b, _, _, -, hprepared, h⟩ := exec_bind.mp h
    obtain ⟨rfl, -⟩ := exec_lift.mp hprepared
    cases b with
    | false => exact absurd h hfailed
    | true =>
      obtain ⟨_, expires, _, _, -, hexpires, h⟩ := exec_bind.mp h
      obtain ⟨rfl, _, -, htext⟩ := exec_lift.mp hexpires
      have htext := ensures_sqlBindExpires session _ _ htext
      cases expires with
      | none => exact absurd h hfailed
      | some expiresAt =>
        rw [htext expiresAt rfl]
        cases hcreated : formatRfc3339Utc session.createdAt sqlTimeBuf with
        | none =>
          simp only [hcreated] at h
          exact absurd h hfailed
        | some createdAt =>
          simp only [hcreated] at h
          obtain ⟨_, b, _, _, -, hbound, h⟩ := exec_bind.mp h
          obtain ⟨rfl, -⟩ := exec_lift.mp hbound
          cases b with
          | false => exact absurd h hfailed
          | true =>
            obtain ⟨_, done, _, _, -, hstep, h⟩ := exec_bind.mp h
            cases done with
            | false => exact absurd h hfailed
            | true =>
              obtain ⟨-, -, rfl⟩ := exec_pure.mp h
              obtain ⟨_, -, hinsert⟩ := exec_call.mp hstep
              exact sqlConnection_inserted hinsert

theorem SqlDb.find_insertRow (db : SqlDb) (row : SqlRow) (hnew : db.find row.id = none) :
    (db.insertRow row hnew).find row.id = some row := by
  unfold find insertRow
  rw [List.find?_append]
  unfold find at hnew
  rw [hnew]
  simp

/-- And create answers 0 for what has a row, with nothing failing. -/
theorem sqliteCreate_accepts {session : Session} {row : SqlRow} (h : rowOf session = some row) {db : SqlDb}
    (hnew : db.find row.id = none) :
    ∃ tr, Exec sqlConnection (sqliteCreate session) db tr 0 (db.insertRow row hnew) := by
  have hcreate : Total (Still 0) sqlServer (sqliteCreate session)
      (fun rc db' => rc = 0 ∧ db' = db.insertRow row hnew) db := by
    rw [total_sqliteCreate, h]
    show dite _ _ _
    rw [dif_pos hnew]
    exact ⟨rfl, rfl⟩
  obtain ⟨tr, _, _, hexec, -, rfl, rfl⟩ := hcreate.outcome fun o st =>
    ⟨[], _, _, ⟨rfl, rfl, .refl _⟩, fun _ he => (List.not_mem_nil he).elim⟩
  exact ⟨tr, hexec.component fun _ _ _ _ _ h => .inl h⟩

/-- What get finds where a session has been stored. -/
theorem total_sqliteGet_stored {session : Session} {now : Int} {row : SqlRow} (h : rowOf session = some row)
    (hexp : session.hasExpires = (session.expiresAt != 0)) (hlive : session.expiredAt now = false) {db : SqlDb}
    (hnew : db.find row.id = none) {Q : Option Session → SqlDb → Prop} :
    Readable session ∧ (Total (Still now) sqlServer (sqliteGet row.id) Q (db.insertRow row hnew) ↔
        Q (some session) (db.insertRow row hnew)) ∨
      ¬ Readable session ∧ (Total (Still now) sqlServer (sqliteGet row.id) Q (db.insertRow row hnew) ↔
        Q none (db.insertRow row hnew)) := by
  rw [total_sqliteGet, db.find_insertRow row hnew, Option.bind_some]
  rcases (stores_of_rowOf h).session hexp with ⟨hread, hsession⟩ | ⟨hnot, hsession⟩
  · rw [hsession]
    refine .inl ⟨hread, ?_⟩
    show ite _ _ _ ↔ _
    rw [hlive, if_neg Bool.false_ne_true]
  · rw [hsession]
    exact .inr ⟨hnot, Iff.rfl⟩

/-- What create answers 0 for, get returns. -/
def SqliteKeeps (session : Session) (id : CStr) (now : Int) (db : SqlDb) : Prop :=
  ∀ tr db', Exec sqlConnection (sqliteCreate session) db tr 0 db' →
    Total (Still now) sqlServer (sqliteGet id) (fun out _ => out = some session) db'

/-- **What create accepts, get returns exactly if its times are read back.** -/
theorem sqlite_keeps_iff {session : Session} {id : CStr} {now : Int} {db : SqlDb} (hid : session.id = some id)
    (huser : session.userId ≠ none) (hexp : session.hasExpires = (session.expiresAt != 0))
    (hlive : session.expiredAt now = false) (hnew : db.find id = none) :
    SqliteKeeps session id now db ↔ ¬ Printable session ∨ Readable session := by
  have hsome := rowOf_isSome (hid ▸ Option.some_ne_none id) huser
  constructor
  · intro hkeeps
    by_cases hprintable : Printable session
    · obtain ⟨row, hrow⟩ := Option.isSome_iff_exists.mp (hsome.mpr hprintable)
      obtain rfl : row.id = id := Option.some.inj ((stores_of_rowOf hrow).id.symm.trans hid)
      obtain ⟨tr, hcreate⟩ := sqliteCreate_accepts hrow hnew
      have hget := hkeeps tr _ hcreate
      rcases total_sqliteGet_stored hrow hexp hlive hnew with ⟨hread, -⟩ | ⟨-, hnone⟩
      · exact .inr hread
      · cases hnone.mp hget
    · exact .inl hprintable
  · intro hcond tr db' hcreate
    obtain ⟨row, hrow, hnew', rfl⟩ := sqliteCreate_zero hcreate
    obtain rfl : row.id = id := Option.some.inj ((stores_of_rowOf hrow).id.symm.trans hid)
    have hprintable : Printable session := by
      rw [← hsome, hrow]
      rfl
    rcases total_sqliteGet_stored hrow hexp hlive hnew with ⟨-, hfound⟩ | ⟨hnot, -⟩
    · exact hfound.mpr rfl
    · exact absurd (hcond.resolve_left (not_not_intro hprintable)) hnot

/-- A session with an expiry is kept. -/
theorem sqlite_keeps_session : SqliteKeeps
    { sessionInit with id := some "a".toList, userId := some "u".toList, expiresAt := 100, hasExpires := true } "a" 50
    SqlDb.empty := by
  refine (sqlite_keeps_iff rfl (by decide) rfl (by decide) rfl).mpr (.inr ?_)
  constructor
  · decide
  · exact fun _ => by decide

/-- A session created in the last second of 1969 is not. -/
theorem sqlite_loses_session : ∃ (s : Session) (tr : List (Event (Sys.sum SqlSig))) (db : SqlDb),
    s.id = some ("a" : CStr) ∧ s.userId = some ("u" : CStr) ∧ s.hasExpires = false ∧ s.expiresAt = 0 ∧ s.createdAt = -1 ∧
    Exec sqlConnection (sqliteCreate s) SqlDb.empty tr 0 db ∧
    Total (Still 0) sqlServer (sqliteGet "a") (fun out _ => out = none) db ∧ ¬ SqliteKeeps s "a" 0 SqlDb.empty := by
  let s : Session := { sessionInit with id := some "a".toList, userId := some "u".toList, createdAt := -1 }
  have hprintable : Printable s := ⟨by decide, fun h => nomatch h⟩
  obtain ⟨row, hrow⟩ := Option.isSome_iff_exists.mp ((rowOf_isSome (by decide) (by decide)).mpr hprintable)
  have hid : row.id = ("a" : CStr) := Option.some.inj (stores_of_rowOf hrow).id.symm
  have hnew : SqlDb.empty.find row.id = none := rfl
  obtain ⟨tr, hcreate⟩ := sqliteCreate_accepts hrow hnew
  have hget : ∀ Q, Total (Still 0) sqlServer (sqliteGet "a") Q (SqlDb.empty.insertRow row hnew) ↔
      Q none (SqlDb.empty.insertRow row hnew) := by
    intro Q
    rw [← hid]
    rcases @total_sqliteGet_stored s 0 row hrow rfl rfl _ hnew Q with ⟨hread, -⟩ | ⟨-, hnone⟩
    · exact absurd rfl hread.1.2.2
    · exact hnone
  refine ⟨s, tr, _, rfl, rfl, rfl, rfl, rfl, hcreate, (hget _).mpr rfl, fun hkeeps => ?_⟩
  cases (hget _).mp (hkeeps tr _ hcreate)

end OpenDbsc
