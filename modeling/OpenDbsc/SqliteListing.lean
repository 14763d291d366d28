/-
`sqlite_get_by_user_id` of `store/sqlite.c` with its locals.

A local is `none` until it is assigned, and `readLocal` of such a one is
undefined behaviour, as is an element beyond the end of an array. So the
cleanup at `done` reads what the jumps to it have assigned. All but the first
have assigned everything: past it the function is `sqliteGetByUserId` with its
result stored (`sqliteListing_eq`), and it fails cleanly (`listing_clean_iff`).
-/
import OpenDbsc.BackendTrouble
import OpenDbsc.Effects.Halts
import OpenDbsc.SqliteCleanup

namespace OpenDbsc

open Effects Prog

/-! ## The function -/

/-- What `sqlite3_step` returns, as far as the function tells it apart. -/
inductive SqlResult where
  | row
  | done
  | failed
  deriving DecidableEq

/-- The locals that outlive a turn of the loop, but for the statement, which
is assigned where it is declared. A pointer is null or to an array. -/
structure ListingLocals where
  rc : Option Int
  sessions : Option (Option (List Session)) := none
  n : Option Nat := none
  expiredIds : Option (Option (List CStr)) := none
  expiredCount : Option Nat := none
  now : Option Int := none
  step : Option SqlResult := none

def readLocal {α : Type} : Option α → Prog Sys α
  | none => undefinedBehavior
  | some a => pure a

/-- The first `n` elements at a pointer. -/
def firstElements {α : Type} (array : Option (List α)) (n : Nat) : Prog Sys (List α) :=
  if n ≤ (array.getD []).length then pure ((array.getD []).take n) else undefinedBehavior

def freeSessionArray (l : ListingLocals) : Prog Sys Unit := do
  let sessions ← readLocal l.sessions
  let n ← readLocal l.n
  match sessions with
  | none => pure ()
  | some sessions => do
    let _ ← firstElements (some sessions) n
    pure ()

/-- What follows the label `done`: each expired id is freed, then their array. -/
def listingDone (l : ListingLocals) : Prog Sys Int := do
  let expiredCount ← readLocal l.expiredCount
  let expiredIds ← readLocal l.expiredIds
  let _ ← firstElements expiredIds expiredCount
  readLocal l.rc

/-- `free_session_array(sessions, n)`, and to `done`. -/
def listingFails (l : ListingLocals) : Prog Sys (Except Int ListingLocals) := do
  freeSessionArray l
  return .error (← listingDone l)

/-- `tmp.has_expires && tmp.expires_at < now`. -/
def listingExpired (l : ListingLocals) (tmp : Session) : Prog Sys Bool :=
  if tmp.hasExpires then (fun now => decide (tmp.expiresAt < now)) <$> readLocal l.now else pure false

/-- The loop over the rows: what the function returned by `done`, or the locals at its end. -/
def listingLoop (finished : Bool) : List SqlRow → ListingLocals → Prog Sys (Except Int ListingLocals)
  | [], l => pure (.ok { l with step := some (if finished then .done else .failed) })
  | row :: rest, l => do
    let l := { l with step := some .row }
    let some tmp ← sessionFromStmt row | listingFails l
    if ← listingExpired l tmp then
      let some copy ← sqlCopyId tmp | listingFails l
      let expiredIds ← readLocal l.expiredIds
      let expiredCount ← readLocal l.expiredCount
      if !(← malloc ((expiredCount + 1) * 8)) then return ← listingFails l
      let next ← firstElements expiredIds expiredCount
      let l := { l with expiredIds := some (some (next ++ [copy])), expiredCount := some (expiredCount + 1) }
      listingLoop finished rest l
    else
      let sessions ← readLocal l.sessions
      let n ← readLocal l.n
      if !(← malloc ((n + 1) * sizeofSession)) then return ← listingFails l
      let next ← firstElements sessions n
      let l := { l with sessions := some (some (next ++ [tmp])), n := some (n + 1) }
      listingLoop finished rest l

/-- `*out` and `*count`. -/
structure ListingOut where
  sessions : Option (List Session)
  count : Nat

/-- `sqlite_get_by_user_id`: its return code, and what it leaves of `before`. -/
def sqliteListing (userId : Option CStr) (before : ListingOut) : SqlProg (Int × ListingOut) :=
  match userId with
  | none => pure (-1, before)
  | some userId => do
    let out : ListingOut := ⟨none, 0⟩
    if !(← sqlPrepare.lift) then return (-1, out)
    let l : ListingLocals := { rc := some (-1) }
    if !(← (sqlBind 1).lift) then return (← (listingDone l).lift, out)
    let now ← time.lift
    let l := { l with sessions := some none, n := some 0 }
    let l := { l with expiredIds := some none, expiredCount := some 0, now := some now }
    let (rows, finished) ← sqlStep (.selectByUserId userId)
    match ← (listingLoop finished rows l).lift with
    | .error rc => return (rc, out)
    | .ok l =>
      if (← (readLocal l.step).lift) ≠ .done then
        (freeSessionArray l).lift
        return (← (listingDone l).lift, out)
      let expiredCount ← (readLocal l.expiredCount).lift
      let expiredIds ← (readLocal l.expiredIds).lift
      sqliteDeleteEach (← (firstElements expiredIds expiredCount).lift)
      return (0, ⟨← (readLocal l.sessions).lift, ← (readLocal l.n).lift⟩)

/-! ## The locals in the loop -/

/-- A pointer to an array of these elements, null if there are none. -/
def arrayOf {α : Type} : List α → Option (List α)
  | [] => none
  | x :: xs => some (x :: xs)

@[simp] theorem arrayOf_getD {α : Type} (xs : List α) : (arrayOf xs).getD [] = xs := by cases xs <;> rfl

theorem arrayOf_concat {α : Type} (xs : List α) (x : α) : arrayOf (xs ++ [x]) = some (xs ++ [x]) := by cases xs <;> rfl

@[simp] theorem firstElements_arrayOf {α : Type} (xs : List α) : firstElements (arrayOf xs) xs.length = pure xs := by
  simp [firstElements]

@[simp] theorem readLocal_some {α : Type} (a : α) : readLocal (some a) = pure a := rfl

/-- The locals once they are set up, with what has been collected. -/
def collected (now : Int) (sessions : List Session) (expired : List CStr) (step : Option SqlResult) :
    ListingLocals where
  rc := some (-1)
  sessions := some (arrayOf sessions)
  n := some sessions.length
  expiredIds := some (arrayOf expired)
  expiredCount := some expired.length
  now := some now
  step := step

section

variable {now : Int} {sessions : List Session} {expired : List CStr} {step : Option SqlResult}

@[simp] theorem collected_sessions : (collected now sessions expired step).sessions = some (arrayOf sessions) := rfl
@[simp] theorem collected_n : (collected now sessions expired step).n = some sessions.length := rfl
@[simp] theorem collected_expiredIds : (collected now sessions expired step).expiredIds = some (arrayOf expired) := rfl
@[simp] theorem collected_expiredCount : (collected now sessions expired step).expiredCount = some expired.length := rfl
@[simp] theorem collected_step : (collected now sessions expired step).step = step := rfl

@[simp] theorem freeSessionArray_collected : freeSessionArray (collected now sessions expired step) = pure () := by
  unfold freeSessionArray collected
  simp only [readLocal_some, pure_bind]
  cases h : arrayOf sessions with
  | none => rfl
  | some xs =>
    have hread := firstElements_arrayOf sessions
    rw [h] at hread
    simp [hread]

@[simp] theorem listingDone_collected : listingDone (collected now sessions expired step) = pure (-1) := by
  simp [listingDone, collected]

@[simp] theorem listingFails_collected : listingFails (collected now sessions expired step) = pure (.error (-1)) := by
  simp [listingFails]

@[simp] theorem listingExpired_collected (tmp : Session) :
    listingExpired (collected now sessions expired step) tmp = pure (sqlExpired tmp now) := by
  unfold listingExpired sqlExpired
  cases tmp.hasExpires <;> rfl

/-- The locals when the loop starts. -/
theorem collected_start :
    { rc := some (-1)
      sessions := some none
      n := some 0
      expiredIds := some none
      expiredCount := some 0
      now := some now } = collected now [] [] none := rfl

theorem collected_row : { collected now sessions expired step with step := some .row } =
    collected now sessions expired (some .row) := rfl

theorem collected_expired (id : CStr) :
    { collected now sessions expired step with
      expiredIds := some (some (expired ++ [id])), expiredCount := some (expired.length + 1) } =
      collected now sessions (expired ++ [id]) step := by
  simp [collected, arrayOf_concat]

theorem collected_session (s : Session) :
    { collected now sessions expired step with
      sessions := some (some (sessions ++ [s])), n := some (sessions.length + 1) } =
      collected now (sessions ++ [s]) expired step := by
  simp [collected, arrayOf_concat]

/-- **The loop is the collecting**, and its failures all return -1. -/
theorem listingLoop_collected (finished : Bool) (rows : List SqlRow) :
    listingLoop finished rows (collected now sessions expired step) = (fun
      | none => .error (-1)
      | some r => .ok (collected now r.1 r.2 (some (if finished then .done else .failed)))) <$>
        sqliteCollect now rows sessions expired := by
  induction rows generalizing sessions expired step with
  | nil => rfl
  | cons row rest ih =>
    rw [listingLoop, sqliteCollect, map_bind, collected_row]
    refine bind_congr fun out => ?_
    cases out with
    | none => exact listingFails_collected
    | some tmp =>
      simp only [listingExpired_collected, pure_bind]
      split
      · rw [map_bind]
        refine bind_congr fun copy => ?_
        cases copy with
        | none => exact listingFails_collected
        | some copy =>
          simp only [collected_expiredIds, collected_expiredCount, readLocal_some, pure_bind, map_bind]
          refine bind_congr fun b => ?_
          cases b with
          | false => exact listingFails_collected
          | true =>
            simp only [firstElements_arrayOf, pure_bind, Bool.not_true, Bool.false_eq_true, if_false]
            rw [← ih, ← collected_expired]
      · simp only [collected_sessions, collected_n, readLocal_some, pure_bind, map_bind]
        refine bind_congr fun b => ?_
        cases b with
        | false => exact listingFails_collected
        | true =>
          simp only [firstElements_arrayOf, pure_bind, Bool.not_true, Bool.false_eq_true, if_false]
          rw [← ih, ← collected_session]

end

/-! ## The listing -/

/-- What is returned and stored for what the listing finds. -/
def listingResult : Option (List Session) → Int × ListingOut
  | none => (-1, ⟨none, 0⟩)
  | some sessions => (0, ⟨arrayOf sessions, sessions.length⟩)

theorem undefined_lift_bind {α β : Type} (f : α → SqlProg β) :
    (undefinedBehavior.lift >>= f) = undefinedBehavior.lift := by
  rw [undefinedBehavior, undefinedBehavior, Prog.lift, Prog.lift, op_bind]
  congr 1
  funext x
  exact x.elim

theorem undefined_lift_map {α β : Type} (g : α → β) :
    (g <$> undefinedBehavior.lift : SqlProg β) = undefinedBehavior.lift := by
  rw [← bind_pure_comp, undefined_lift_bind]

/-- The cleanup reads a count that is not assigned before the value is bound. -/
theorem listingDone_unset : listingDone { rc := some (-1) } = undefinedBehavior := undefined_bind _

/-- **The listing with its locals is the listing**, its result stored. -/
theorem sqliteListing_eq (userId : CStr) (before : ListingOut) :
    sqliteListing (some userId) before = listingResult <$> sqliteGetByUserId userId := by
  unfold sqliteListing sqliteGetByUserId
  simp only [map_bind]
  refine bind_congr fun prepared => ?_
  cases prepared with
  | false => rfl
  | true =>
    simp only [Bool.not_true, Bool.false_eq_true, if_false, map_bind]
    refine bind_congr fun bound => ?_
    cases bound with
    | false =>
      simp only [Bool.not_false, if_true, listingDone_unset, undefined_lift_bind, undefined_lift_map]
    | true =>
      simp only [Bool.not_true, Bool.false_eq_true, if_false, map_bind]
      refine bind_congr fun now => ?_
      refine bind_congr fun answer => ?_
      obtain ⟨rows, finished⟩ := answer
      simp only [collected_start, listingLoop_collected, lift_map, bind_map_left]
      refine bind_congr fun out => ?_
      cases out with
      | none => rfl
      | some r =>
        obtain ⟨sessions, expired⟩ := r
        cases finished with
        | false => simp [listingResult]
        | true => simp [listingResult]

/-! ## Its runs -/

/-- Collecting never copies an id that is not there: a row that is read has one. -/
theorem answerable_sqliteCollect (now : Int) (rows : List SqlRow) (sessions : List Session) (expired : List CStr) :
    (sqliteCollect now rows sessions expired).Answerable := by
  induction rows generalizing sessions expired with
  | nil => trivial
  | cons row rest ih =>
    rw [sqliteCollect]
    refine (onlyAllocates_sessionFromStmt row).answerable.bind_of_ensures
      (ensures_sessionFromStmt row) fun out hout => ?_
    cases out with
    | none => trivial
    | some tmp =>
      have hid := (SqlRow.session_some (hout tmp rfl)).1
      simp only
      split
      · rw [sqlCopyId, hid]
        refine (onlyAllocates_strdup row.id).answerable.bind fun copy => ?_
        cases copy with
        | none => trivial
        | some copy =>
          refine (onlyAllocates_malloc _).answerable.bind fun b => ?_
          split
          · trivial
          · exact ih _ _
      · refine (onlyAllocates_malloc _).answerable.bind fun b => ?_
        split
        · trivial
        · exact ih _ _

section

variable {B : Comp Sys SqlSig SqlDb}

theorem safe_sqliteDelete (id : CStr) (db : SqlDb) : Safe B (sqliteDelete id) db := by
  refine ((onlyAllocates_sqlBind 2).answerable.safe_lift db).bind fun _ b db' _ => ?_
  cases b with
  | false => trivial
  | true =>
    refine (safe_call (T := SqlSig) (.deleteById id) db').bind fun _ done _ _ => ?_
    cases done <;> trivial

theorem safe_sqliteDeleteEach (ids : List CStr) (db : SqlDb) : Safe B (sqliteDeleteEach ids) db := by
  induction ids generalizing db with
  | nil => trivial
  | cons id ids ih => exact (safe_sqliteDelete id db).bind fun _ _ db' _ => ih db'

end

/-- `sqlite_get_by_user_id` with its statement prepared and the value bound. -/
def sqliteListRows (userId : CStr) : SqlProg (Option (List Session)) := do
  let now ← time.lift
  let (rows, done) ← sqlStep (.selectByUserId userId)
  let some (sessions, expired) ← (sqliteCollect now rows [] []).lift | return none
  if !done then return none
  sqliteDeleteEach expired
  return some sessions

theorem sqliteGetByUserId_eq (userId : CStr) : sqliteGetByUserId userId = (do
    if !(← sqlPrepare.lift) then return none
    if !(← (sqlBind 1).lift) then return ← undefinedBehavior.lift
    sqliteListRows userId) := rfl

theorem safe_sqliteListRows {B : Comp Sys SqlSig SqlDb} (userId : CStr) (db : SqlDb) :
    Safe B (sqliteListRows userId) db := by
  have htime : time.Answerable := answerable_perform (S := Sys) (o := .time) ⟨0⟩
  refine (htime.safe_lift db).bind fun _ now db₁ _ => ?_
  refine (safe_call (T := SqlSig) (.selectByUserId userId) db₁).bind fun _ answer db₂ _ => ?_
  obtain ⟨rows, done⟩ := answer
  refine ((answerable_sqliteCollect now rows [] []).safe_lift db₂).bind fun _ out db₃ _ => ?_
  cases out with
  | none => trivial
  | some r =>
    cases done with
    | false => trivial
    | true => exact (safe_sqliteDeleteEach r.2 db₃).bind fun _ _ _ _ => trivial

/-- A query leaves the table as it is, whether it fails or not. -/
theorem sqlConnection_select {userId : CStr} {db db' : SqlDb} {tr x}
    (h : sqlConnection (.selectByUserId userId) db tr x db') : db' = db := by
  rcases h with ⟨-, hdb, -⟩ | ⟨-, hdb, -⟩
  · exact hdb
  · exact hdb

/-- Nothing is deleted before everything has been read. -/
theorem sqliteListRows_fails {userId : CStr} {db db' : SqlDb} {tr}
    (h : Exec sqlConnection (sqliteListRows userId) db tr none db') : db' = db := by
  obtain ⟨_, now, _, _, -, htime, h₁⟩ := exec_bind.mp h
  obtain ⟨rfl, -⟩ := exec_lift.mp htime
  obtain ⟨_, ⟨rows, done⟩, _, _, -, hselect, h₂⟩ := exec_bind.mp h₁
  obtain ⟨_, -, hquery⟩ := exec_call.mp hselect
  obtain rfl := sqlConnection_select hquery
  obtain ⟨_, out, _, _, -, hcollect, h₃⟩ := exec_bind.mp h₂
  obtain ⟨rfl, -⟩ := exec_lift.mp hcollect
  cases out with
  | none => exact (exec_pure.mp h₃).2.2
  | some r =>
    cases done with
    | false => exact (exec_pure.mp h₃).2.2
    | true =>
      obtain ⟨_, _, _, _, -, -, h₄⟩ := exec_bind.mp h₃
      cases (exec_pure.mp h₄).2.1

/-- The statement is prepared, and its value not bound. -/
def BindFails (tr : List (Event (Sys.sum SqlSig))) : Prop :=
  ∃ rest, tr = ⟨.inl .library, true⟩ :: ⟨.inl .library, false⟩ :: rest

/-- How the listing ends: without its value bound it does not return, and
otherwise it returns, with the table as it was if it has nothing to return. -/
theorem sqliteGetByUserId_ends {userId : CStr} {db db' : SqlDb} {tr} {r : Option (Option (List Session))}
    (h : Halts sqlConnection (sqliteGetByUserId userId) db tr r db') :
    BindFails tr ∧ r = none ∨ ¬ BindFails tr ∧ ∃ found, r = some found ∧ (found = none → db' = db) := by
  rw [sqliteGetByUserId_eq] at h
  obtain ⟨prepared, tr, rfl, h₁⟩ := (halts_env (S := Sys) (o := .library) ⟨true⟩).mp h
  cases prepared with
  | false =>
    obtain ⟨rfl, rfl, rfl⟩ := halts_ret.mp h₁
    exact .inr ⟨nofun, none, rfl, fun _ => rfl⟩
  | true =>
    obtain ⟨bound, tr, rfl, h₂⟩ := (halts_env (S := Sys) (o := .library) ⟨true⟩).mp h₁
    cases bound with
    | false =>
      obtain ⟨-, rfl, -⟩ := (halts_stuck (S := Sys) (o := .undefined) fun ⟨x⟩ => nomatch x).mp h₂
      exact .inl ⟨⟨tr, rfl⟩, rfl⟩
    | true =>
      obtain ⟨found, rfl, hex⟩ := (safe_sqliteListRows userId db).halts h₂
      refine .inr ⟨nofun, found, rfl, fun hnone => ?_⟩
      subst hnone
      exact sqliteListRows_fails hex

/-- What it is to fail cleanly, or not to fail: the function returns, and if
it returns -1 it leaves `*out` null, `*count` 0 and the table as it was. -/
def EndsCleanly (db : SqlDb) (r : Option (Int × ListingOut)) (db' : SqlDb) : Prop :=
  ∃ rc out, r = some (rc, out) ∧ (rc = -1 → out = ⟨none, 0⟩ ∧ db' = db)

/-- **Per-user listing ends cleanly unless its value cannot be bound.** In every
run to its end, whatever the table holds and whatever else fails; without the
value bound it comes to undefined behaviour. -/
theorem listing_clean_iff {userId : CStr} {before : ListingOut} {db db' : SqlDb} {tr} {r : Option (Int × ListingOut)}
    (h : Halts sqlConnection (sqliteListing (some userId) before) db tr r db') :
    EndsCleanly db r db' ↔ ¬ BindFails tr := by
  rw [sqliteListing_eq] at h
  obtain ⟨r', rfl, hends⟩ := halts_map.mp h
  obtain ⟨hbind, rfl⟩ | ⟨hbind, found, rfl, hkeeps⟩ := sqliteGetByUserId_ends hends
  · exact iff_of_false (fun ⟨_, _, hr, _⟩ => nomatch hr) fun hno => hno hbind
  · refine iff_of_true ?_ hbind
    cases found with
    | none => exact ⟨-1, ⟨none, 0⟩, rfl, fun _ => ⟨rfl, hkeeps rfl⟩⟩
    | some sessions => exact ⟨0, ⟨arrayOf sessions, sessions.length⟩, rfl, nofun⟩

/-- A table with a row of `alice` that cannot be read as a session. -/
def strangeTable : SqlDb where
  rows := [{ id := "s", userId := "alice", state := "?", publicKey := none, algorithm := none, challenge := none,
             expiresAt := none, createdAt := "" }]
  nodup := List.nodup_singleton _

theorem listing_clean_strange : EndsCleanly strangeTable (some (-1, ⟨none, 0⟩)) strangeTable := by
  have hselect :
    sqlConnection (.selectByUserId "alice".toList) strangeTable [] (strangeTable.rows, true) strangeTable :=
    .inl ⟨rfl, rfl, .refl _⟩
  have hrun : Halts sqlConnection (sqliteListing (some "alice".toList) ⟨none, 0⟩) strangeTable
      [⟨.inl .library, true⟩, ⟨.inl .library, true⟩, ⟨.inl .time, 0⟩,
        ⟨.inr (.selectByUserId "alice".toList), (strangeTable.rows, true)⟩, ⟨.inl (.malloc 2), true⟩,
        ⟨.inl (.malloc 6), true⟩] (some (-1, ⟨none, 0⟩)) strangeTable :=
    .env (.env (.env (.call_nil hselect (.env (.env .ret)))))
  exact (listing_clean_iff hrun).mpr nofun

/-- With its value not bound, the cleanup reads locals that were never assigned. -/
theorem listing_reads_unset :
    Halts sqlConnection (sqliteListing (some "alice".toList) ⟨none, 0⟩) SqlDb.empty
      [⟨.inl .library, true⟩, ⟨.inl .library, false⟩] none SqlDb.empty ∧
    ¬ EndsCleanly SqlDb.empty none SqlDb.empty := by
  refine ⟨.env (.env (.stuck fun ⟨x⟩ => nomatch x)), fun ⟨_, _, hr, _⟩ => ?_⟩
  cases hr

end OpenDbsc
