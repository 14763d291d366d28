/-
Calls of the SQLite store made at once, one call of the SQLite API at a time.

`sqlite3_changes` is a call of its own and tells of the connection: how many
rows the statement that ran last on it has changed, whichever call's it was.
So an update reports its own outcome exactly when no statement of another call
that comes out the other way is the last to run between its own and the count
(`sqlite_update_iff`). A thread that makes several calls is several of the
pool's.
-/
import OpenDbsc.Effects.Over
import OpenDbsc.Effects.Pool
import OpenDbsc.ManagerWrites
import OpenDbsc.Sqlite

namespace OpenDbsc

open Effects Prog

/-! ## The SQLite API -/

inductive SqliteOp where
  /-- `sqlite3_step` of an `INSERT`, `UPDATE` or `DELETE`. -/
  | write (o : SqlOp)
  /-- `sqlite3_step` of `SELECT .. WHERE id = ?`. -/
  | rowById (id : CStr)
  /-- `sqlite3_step` of `SELECT .. WHERE user_id = ?`. -/
  | nextRow (userId : CStr)
  | changes

/-- Whether the statement is done; the row, if there is one; the row or the
end, unless there is an error; the count. -/
@[reducible] def SqliteOp.Ans : SqliteOp → Type
  | .write _ => Bool
  | .rowById _ => Option SqlRow
  | .nextRow _ => Option (Option SqlRow)
  | .changes => Nat

abbrev SqliteSig : Sig := ⟨SqliteOp, SqliteOp.Ans⟩

abbrev SqliteProg := Prog (Sys.sum SqliteSig)

def sqliteCall (o : SqliteOp) : SqliteProg o.Ans := call (T := SqliteSig) o

/-- The rows of a listing that has at most `turns` of them, and whether all were read. -/
def sqliteRows (userId : CStr) : Nat → SqliteProg (List SqlRow × Bool)
  | 0 => undefinedBehavior.lift
  | turns + 1 => do
    match ← sqliteCall (.nextRow userId) with
    | some (some row) =>
      let (rows, done) ← sqliteRows userId turns
      return (row :: rows, done)
    | some none => return ([], true)
    | none => return ([], false)

/-- A statement in the calls it takes. -/
def stepwise (turns : Nat) : (o : SqlOp) → SqliteProg o.Ans
  | .insert id values createdAt => sqliteCall (.write (.insert id values createdAt))
  | .selectById id => sqliteCall (.rowById id)
  | .update values id => do
    if !(← sqliteCall (.write (.update values id))) then return none
    let changes ← sqliteCall .changes
    return some changes
  | .deleteById id => sqliteCall (.write (.deleteById id))
  | .selectByUserId userId => sqliteRows userId turns
  | .deleteByUserId userId => sqliteCall (.write (.deleteByUserId userId))

/-- The store's functions in calls of the SQLite API. -/
def sqliteApi (turns : Nat) (o : StoreOp) : SqliteProg o.Ans := (sqliteStore o).over (stepwise turns)

/-! ## The connection -/

/-- The table, and what `sqlite3_changes` tells. -/
structure SqliteHandle where
  db : SqlDb
  changes : Nat

/-- What a statement changes, unless a constraint forbids it: the number of rows, and the table. -/
def SqlDb.run (db : SqlDb) (o : SqlOp) : Option (Nat × SqlDb) :=
  match o, db.answer o with
  | .insert .., (true, db') => some (1, db')
  | .update .., (some n, db') => some (n, db')
  | .deleteById id, (true, db') => some (db.rows.countP fun row => row.id == id, db')
  | .deleteByUserId userId, (true, db') => some (db.rows.countP fun row => row.userId == userId, db')
  | _, _ => none

/-- What a call answers and leaves. Any statement may fail; what the count
tells then is left open, and so is what a listing sees of other statements. -/
inductive SqliteHandle.Answers (handle : SqliteHandle) : (o : SqliteOp) → o.Ans → SqliteHandle → Prop
  | done {o n db} (h : handle.db.run o = some (n, db)) : Answers handle (.write o) true ⟨db, n⟩
  | failed {o} (n : Nat) : Answers handle (.write o) false ⟨handle.db, n⟩
  | found {id} : Answers handle (.rowById id) (handle.db.find id) handle
  | unread {id} : Answers handle (.rowById id) none handle
  | nextRow {userId} (row : Option (Option SqlRow)) : Answers handle (.nextRow userId) row handle
  | changes : Answers handle .changes handle.changes handle

def sqliteHandle : Comp Sys SqliteSig SqliteHandle := fun o handle tr x handle' => tr = [] ∧ handle.Answers o x handle'

theorem SqlDb.run_update {db db' : SqlDb} {values : SqlValues} {id : CStr} {n : Nat} :
    db.run (.update values id) = some (n, db') ↔ db.answer (.update values id) = (some n, db') := by
  unfold SqlDb.run
  cases db.answer (.update values id) with
  | mk x db₁ => cases x <;> simp

/-- An `UPDATE` that is done has changed a row exactly when it has found one. -/
theorem SqlDb.updated_pos {db db' : SqlDb} {values : SqlValues} {id : CStr} {n : Nat}
    (h : db.run (.update values id) = some (n, db')) : 0 < n ↔ db.find id ≠ none := by
  rw [run_update] at h
  unfold answer at h
  cases hfind : db.find id with
  | none =>
    simp only [hfind] at h
    cases h
    simp
  | some row =>
    cases huser : values.userId with
    | none =>
      simp only [hfind, huser] at h
      cases h
    | some userId =>
      simp only [hfind, huser] at h
      cases h
      simp

/-- Made alone, an update's two calls are the one statement. -/
theorem stepwise_update {turns : Nat} {values : SqlValues} {id : CStr} {handle handle' : SqliteHandle} {tr x}
    (h : Exec sqliteHandle (stepwise turns (.update values id)) handle tr x handle') :
    sqlConnection (.update values id) handle.db [] x handle'.db := by
  obtain ⟨tr₁, done, handle₁, tr₂, rfl, h₁, h₂⟩ := exec_bind.mp h
  obtain ⟨tr₃, -, -, hwrite⟩ := exec_call.mp h₁
  cases hwrite with
  | failed n =>
    obtain ⟨-, rfl, rfl⟩ := exec_pure.mp h₂
    exact .inr ⟨rfl, rfl, .update⟩
  | @done _ n db hrun =>
    obtain ⟨tr₄, changes, handle₂, tr₅, rfl, h₄, h₅⟩ := exec_bind.mp h₂
    obtain ⟨tr₆, -, -, hchanges⟩ := exec_call.mp h₄
    cases hchanges
    obtain ⟨-, rfl, rfl⟩ := exec_pure.mp h₅
    refine .inl ⟨rfl, ?_, ?_⟩
    · rw [SqlDb.run_update.mp hrun]
    · rw [SqlDb.run_update.mp hrun]
      exact .refl _

/-! ## Calls at once -/

inductive SqliteCall where
  | update (session : Session)
  | refresh (sessionId sessionResponseHeader : Option CStr)
  | other (o : StoreOp)

/-- A call's return code, and the status of its response. -/
def SqliteCall.program (L : Extern) (cfg : ManagerConfig) : SqliteCall → Request (Int × Int)
  | update session => do
    let rc ← storeUpdate session
    return (rc, 0)
  | refresh sessionId sessionResponseHeader => do
    let (rc, resp) ← managerRefresh L cfg sessionId sessionResponseHeader
    return (rc, resp.statusCode)
  | other o => do
    let _ ← call (T := StoreSig) o
    return (0, 0)

section

variable {ι : Type} [DecidableEq ι]

abbrev ConnectionPool (ι : Type) := Pool Sys SqliteSig (fun _ : ι => Int × Int) SqliteHandle

abbrev ConnectionMove (ι : Type) := Transition (ConnectionPool ι) (Pool.Label Sys SqliteSig ι)

namespace ConnectionPool

def start (L : Extern) (cfg : ManagerConfig) (turns : Nat) (calls : ι → SqliteCall) (handle : SqliteHandle) :
    ConnectionPool ι :=
  ⟨fun i => ((calls i).program L cfg).over (sqliteApi turns), handle⟩

/-- A run of the calls, from any table. -/
def ConnectionRun (L : Extern) (cfg : ManagerConfig) (turns : Nat) (calls : ι → SqliteCall)
    (h : List (ConnectionMove ι))
    (P : ConnectionPool ι) : Prop :=
  ∃ handle, Run (Pool.Step sqliteHandle fun _ _ => False) (start L cfg turns calls handle) h P

/-- The call's own `UPDATE` is done. -/
def Updates (i : ι) (t : ConnectionMove ι) : Prop :=
  ∃ values id, t.label = some (i, ⟨.inr (.write (.update values id)), true⟩)

/-- And has matched a row. -/
def Matches (i : ι) (t : ConnectionMove ι) : Prop :=
  ∃ values id, t.label = some (i, ⟨.inr (.write (.update values id)), true⟩) ∧ t.pre.shared.db.find id ≠ none

def Counts (i : ι) (t : ConnectionMove ι) : Prop := ∃ n, t.label = some (i, ⟨.inr .changes, n⟩)

/-- An `INSERT`, `UPDATE` or `DELETE` runs. -/
def Writes (t : ConnectionMove ι) : Prop := ∃ i o x, t.label = some (i, ⟨.inr (.write o), x⟩)

/-- The last statement to run between the call's `UPDATE` and its count comes out the other way. -/
def Disturbed (i : ι) (h : List (ConnectionMove ι)) : Prop :=
  ∃ h₁ t h₂ w h₃ t' h₄, h = h₁ ++ t :: (h₂ ++ w :: (h₃ ++ t' :: h₄)) ∧ Updates i t ∧ Counts i t' ∧ Writes w ∧
    (∀ v ∈ h₃, ¬ Writes v) ∧ ¬ (0 < w.post.shared.changes ↔ 0 < t.post.shared.changes)

/-! ## The count -/

variable {L : Extern} {cfg : ManagerConfig} {turns : Nat} {calls : ι → SqliteCall} {h : List (ConnectionMove ι)}
  {P P' : ConnectionPool ι}

/-- Only a statement that writes moves the count. -/
theorem changes_kept (hrun : Run (Pool.Step sqliteHandle fun _ _ => False) P h P') (hquiet : ∀ t ∈ h, ¬ Writes t) :
    P'.shared.changes = P.shared.changes := by
  induction hrun with
  | init => rfl
  | @step h P₁ l P₂ _ hstep ih =>
    have hkept := ih fun t ht => hquiet t (List.mem_append_left _ ht)
    have hlast := hquiet ⟨P₁, l, P₂⟩ (List.mem_append_right _ List.mem_cons_self)
    rw [← hkept]
    rcases l with _ | ⟨i, o | o, x⟩
    · cases hstep with
      | self hE => exact hE.elim
    · rw [hstep.kept]
    · obtain ⟨-, -, hans⟩ := hstep.answered
      generalize P₁.shared = handle, P₂.shared = handle' at hans
      cases hans with
      | done => exact absurd ⟨i, _, _, rfl⟩ hlast
      | failed => exact absurd ⟨i, _, _, rfl⟩ hlast
      | _ => rfl

omit [DecidableEq ι] in
/-- Up to the last statement that writes, if there is one. -/
theorem last_write (h : List (ConnectionMove ι)) :
    (∀ t ∈ h, ¬ Writes t) ∨ ∃ h₁ w h₂, h = h₁ ++ w :: h₂ ∧ Writes w ∧ ∀ t ∈ h₂, ¬ Writes t := by
  induction h with
  | nil => exact .inl fun t ht => absurd ht List.not_mem_nil
  | cons t h ih =>
    rcases ih with hnone | ⟨h₁, w, h₂, rfl, hw, hquiet⟩
    · by_cases ht : Writes t
      · exact .inr ⟨[], t, h, rfl, ht, hnone⟩
      · refine .inl fun t' ht' => ?_
        rcases List.mem_cons.mp ht' with rfl | ht'
        · exact ht
        · exact hnone t' ht'
    · exact .inr ⟨t :: h₁, w, h₂, rfl, hw, hquiet⟩

theorem count_eq {i : ι} {n : Nat}
    (hstep : Pool.Step sqliteHandle (fun _ _ => False) P (some (i, ⟨.inr .changes, n⟩)) P') :
    n = P.shared.changes := by
  obtain ⟨-, -, hans⟩ := hstep.answered
  generalize P'.shared = handle' at hans
  cases hans
  rfl

theorem updated_pos {i : ι} {values : SqlValues} {id : CStr}
    (hstep : Pool.Step sqliteHandle (fun _ _ => False) P (some (i, ⟨.inr (.write (.update values id)), true⟩)) P') :
    0 < P'.shared.changes ↔ P.shared.db.find id ≠ none := by
  obtain ⟨-, -, hans⟩ := hstep.answered
  generalize P'.shared = handle' at hans
  cases hans with
  | done hrun => exact SqlDb.updated_pos hrun

/-- An update of the call and its count, in the history. -/
structure Counted (i : ι) (h₁ : List (ConnectionMove ι)) (t : ConnectionMove ι) (h₂ : List (ConnectionMove ι))
    (t' : ConnectionMove ι)
    (values : SqlValues) (id : CStr) (n : Nat) : Prop where
  update : t.label = some (i, ⟨.inr (.write (.update values id)), true⟩)
  count : t'.label = some (i, ⟨.inr .changes, n⟩)
  quiet : Pool.eventsOf i h₂ = []

theorem exists_counted {i : ι} {tr₁ tr₂ : List (Event (Sys.sum SqliteSig))} {values : SqlValues} {id : CStr} {n : Nat}
    (heq : Pool.eventsOf i h = tr₁ ++ ⟨.inr (.write (.update values id)), true⟩ :: ⟨.inr .changes, n⟩ :: tr₂) :
    ∃ h₁ t h₂ t' h₃, h = h₁ ++ t :: (h₂ ++ t' :: h₃) ∧ Counted i h₁ t h₂ t' values id n ∧ Pool.eventsOf i h₁ = tr₁ ∧
      Pool.eventsOf i h₃ = tr₂ := by
  obtain ⟨h₁, t, h', rfl, ht, rfl, hrest⟩ := Pool.eventsOf_split heq
  obtain ⟨h₂, t', h₃, rfl, ht', hquiet, rfl⟩ := Pool.eventsOf_split (hrest.trans (List.nil_append _).symm)
  exact ⟨h₁, t, h₂, t', h₃, rfl, ⟨ht, ht', hquiet⟩, rfl, rfl⟩

/-- The last statement that writes in `h` comes out the other way than `t`. -/
def TurnedBy (h : List (ConnectionMove ι)) (t : ConnectionMove ι) : Prop :=
  ∃ h₁ w h₂, h = h₁ ++ w :: h₂ ∧ Writes w ∧ (∀ v ∈ h₂, ¬ Writes v) ∧
    ¬ (0 < w.post.shared.changes ↔ 0 < t.post.shared.changes)

omit [DecidableEq ι] in
theorem last_write_unique {h₁ h₂ g₁ g₂ : List (ConnectionMove ι)} {w v : ConnectionMove ι}
    (heq : h₁ ++ w :: h₂ = g₁ ++ v :: g₂)
    (hw : Writes w) (hv : Writes v) (hh : ∀ t ∈ h₂, ¬ Writes t) (hg : ∀ t ∈ g₂, ¬ Writes t) : w = v := by
  rcases List.append_eq_append_iff.mp heq with ⟨c, rfl, hc⟩ | ⟨c, rfl, hc⟩
  · cases c with
    | nil => exact (List.cons_eq_cons.mp hc).1
    | cons x c =>
      obtain ⟨rfl, rfl⟩ := List.cons_eq_cons.mp hc
      exact absurd hv (hh v (List.mem_append_right _ List.mem_cons_self))
  · cases c with
    | nil => exact (List.cons_eq_cons.mp hc).1.symm
    | cons x c =>
      obtain ⟨rfl, rfl⟩ := List.cons_eq_cons.mp hc
      exact absurd hw (hg w (List.mem_append_right _ List.mem_cons_self))

/-- **One update**: the count tells whether it has matched a row exactly when
no statement turns it in between. -/
theorem Counted.iff {i : ι} {h₁ h₂ h₃ : List (ConnectionMove ι)} {t t' : ConnectionMove ι} {values : SqlValues}
    {id : CStr} {n : Nat}
    (hrun : Run (Pool.Step sqliteHandle fun _ _ => False) P (h₁ ++ t :: (h₂ ++ t' :: h₃)) P')
    (hc : Counted i h₁ t h₂ t' values id n) : (0 < n ↔ t.pre.shared.db.find id ≠ none) ↔ ¬ TurnedBy h₂ t := by
  obtain ⟨-, hstep, hrest⟩ := Pool.transition hrun
  obtain ⟨hbetween, hstep', -⟩ := Pool.transition hrest
  rw [hc.update] at hstep
  rw [hc.count] at hstep'
  rw [count_eq hstep', ← updated_pos hstep]
  rcases last_write h₂ with hquiet | ⟨g₁, w, g₂, rfl, hw, hquiet⟩
  · rw [changes_kept hbetween hquiet]
    refine iff_of_true Iff.rfl ?_
    rintro ⟨g₁, w, g₂, rfl, hw, -⟩
    exact hquiet w (List.mem_append_right _ List.mem_cons_self) hw
  · obtain ⟨-, -, hafter⟩ := Pool.transition hbetween
    rw [changes_kept hafter hquiet]
    constructor
    · rintro hsame ⟨k₁, v, k₂, heq, hv, hquiet', hne⟩
      rw [last_write_unique heq hw hv hquiet hquiet'] at hsame
      exact hne hsame
    · intro hturned
      by_contra hne
      exact hturned ⟨g₁, w, g₂, rfl, hw, hquiet, hne⟩

theorem Counted.disturbed {i : ι} {h₁ h₂ h₃ : List (ConnectionMove ι)} {t t' : ConnectionMove ι}
    {values : SqlValues} {id : CStr}
    {n : Nat} (hc : Counted i h₁ t h₂ t' values id n) (hturned : TurnedBy h₂ t) :
    Disturbed i (h₁ ++ t :: (h₂ ++ t' :: h₃)) := by
  obtain ⟨g₁, w, g₂, rfl, hw, hquiet, hne⟩ := hturned
  exact ⟨h₁, t, g₁, w, g₂, t', h₃, by simp, ⟨values, id, hc.update⟩, ⟨n, hc.count⟩, hw, hquiet, hne⟩

/-- Where the only event is that is neither the runtime's nor the last. -/
theorem only_event {tr : List (Event Sys)} {tr₁ tr₂ : List (Event (Sys.sum SqliteSig))}
    {u c e : Event (Sys.sum SqliteSig)}
    (heq : tr₁ ++ e :: tr₂ = tr.map Event.inl ++ [u, c]) (he : ∀ e' : Event Sys, e ≠ Event.inl e') (hc : e ≠ c) :
    tr₁ = tr.map Event.inl := by
  rcases List.append_eq_append_iff.mp heq with ⟨c₁, hc₁, hrest⟩ | ⟨c₁, rfl, hrest⟩
  · cases c₁ with
    | nil => rw [hc₁, List.append_nil]
    | cons e₁ c₁ =>
      obtain ⟨rfl, -⟩ := List.cons_eq_cons.mp hrest
      have hmem : e ∈ tr.map Event.inl := hc₁ ▸ List.mem_append_right _ List.mem_cons_self
      obtain ⟨e', -, he'⟩ := List.mem_map.mp hmem
      exact absurd he'.symm (he e')
  · cases c₁ with
    | nil => rw [List.append_nil]
    | cons e₁ c₁ =>
      have hlast : [c] = c₁ ++ e :: tr₂ := (List.cons_eq_cons.mp hrest).2
      have hmem : e ∈ [c] := hlast ▸ List.mem_append_right _ List.mem_cons_self
      exact absurd (List.mem_singleton.mp hmem) hc

/-- The call's update is the one of its events. -/
theorem Counted.only {i : ι} {h₁ h₂ h₃ k₁ k₂ : List (ConnectionMove ι)} {t t' t₀ : ConnectionMove ι}
    {values : SqlValues} {id : CStr}
    {n : Nat} {tr : List (Event Sys)} (hc : Counted i h₁ t h₂ t' values id n)
    (h₁eq : Pool.eventsOf i h₁ = tr.map Event.inl) (h₃eq : Pool.eventsOf i h₃ = [])
    (heq : k₁ ++ t₀ :: k₂ = h₁ ++ t :: (h₂ ++ t' :: h₃)) (ht₀ : Updates i t₀) :
    k₁ = h₁ ∧ t₀ = t ∧ k₂ = h₂ ++ t' :: h₃ := by
  obtain ⟨values', id', ht₀⟩ := ht₀
  have hevents := congrArg (Pool.eventsOf i) heq
  rw [Pool.eventsOf_append, Pool.eventsOf_cons i ht₀, Pool.eventsOf_append, Pool.eventsOf_cons i hc.update,
    Pool.eventsOf_append, Pool.eventsOf_cons i hc.count, hc.quiet, h₃eq, h₁eq] at hevents
  have hk₁ := only_event hevents (fun e' he' => by cases he') (fun he' => by cases he')
  exact Pool.eventsOf_position heq ht₀ hc.update (hk₁.trans h₁eq.symm)

theorem Counted.turned {i : ι} {h₁ h₂ h₃ : List (ConnectionMove ι)} {t t' : ConnectionMove ι} {values : SqlValues}
    {id : CStr} {n : Nat}
    {tr : List (Event Sys)} (hc : Counted i h₁ t h₂ t' values id n) (h₁eq : Pool.eventsOf i h₁ = tr.map Event.inl)
    (h₃eq : Pool.eventsOf i h₃ = []) (hdisturbed : Disturbed i (h₁ ++ t :: (h₂ ++ t' :: h₃))) : TurnedBy h₂ t := by
  obtain ⟨k₁, t₀, k₂, w, k₃, t₀', k₄, heq, ht₀, ⟨n', ht₀'⟩, hw, hquiet, hne⟩ := hdisturbed
  obtain ⟨-, rfl, hrest⟩ := hc.only h₁eq h₃eq heq.symm ht₀
  have hsplit : (k₂ ++ w :: k₃) ++ t₀' :: k₄ = h₂ ++ t' :: h₃ := by
    rw [← hrest]
    simp
  have hevents := congrArg (Pool.eventsOf i) hsplit
  rw [Pool.eventsOf_append, Pool.eventsOf_cons i ht₀', Pool.eventsOf_append i h₂, Pool.eventsOf_cons i hc.count,
    hc.quiet, h₃eq, List.nil_append] at hevents
  have hlen := congrArg List.length hevents
  simp only [List.length_append, List.length_cons, List.length_nil] at hlen
  have hnil : (Pool.eventsOf i (k₂ ++ w :: k₃)).length = 0 := by omega
  obtain ⟨rfl, -, -⟩ := Pool.eventsOf_position hsplit ht₀' hc.count
    ((List.length_eq_zero_iff.mp hnil).trans hc.quiet.symm)
  exact ⟨k₂, w, k₃, rfl, hw, hquiet, hne⟩

end ConnectionPool

end

/-! ## Updates -/

/-- What an update does: its `UPDATE` is not reached, or fails, or is done and counted. -/
inductive UpdateTrace : List (Event (Sys.sum SqliteSig)) → Int → Prop
  | unsent (tr : List (Event Sys)) : UpdateTrace (tr.map Event.inl) (-1)
  | failed (tr : List (Event Sys)) (values : SqlValues) (id : CStr) :
      UpdateTrace (tr.map Event.inl ++ [⟨.inr (.write (.update values id)), false⟩]) (-1)
  | counted (tr : List (Event Sys)) (values : SqlValues) (id : CStr) (n : Nat) :
      UpdateTrace (tr.map Event.inl ++ [⟨.inr (.write (.update values id)), true⟩, ⟨.inr .changes, n⟩])
        (if n > 0 then 0 else -1)

theorem UpdateTrace.lift {tr₁ : List (Event Sys)} {tr : List (Event (Sys.sum SqliteSig))} {rc : Int}
    (h : UpdateTrace tr rc) :
    UpdateTrace (tr₁.map Event.inl ++ tr) rc := by
  cases h with
  | unsent tr =>
    rw [← List.map_append]
    exact .unsent _
  | failed tr values id =>
    rw [← List.append_assoc, ← List.map_append]
    exact .failed _ values id
  | counted tr values id n =>
    rw [← List.append_assoc, ← List.map_append]
    exact .counted _ values id n

theorem trace_stepwise_update {turns : Nat} {values : SqlValues} {id : CStr}
    {tr : List (Event (Sys.sum SqliteSig))} {rc : Int}
    (h : Trace (do
      let some changes ← stepwise turns (.update values id) | return -1
      return if changes > 0 then 0 else -1) tr rc) : UpdateTrace tr rc := by
  obtain ⟨tr₁, out, tr₂, rfl, h₁, h₂⟩ := trace_bind.mp h
  obtain ⟨tr₃, done, tr₄, rfl, h₃, h₄⟩ := trace_bind.mp h₁
  obtain rfl := trace_call.mp h₃
  cases done with
  | false =>
    obtain ⟨rfl, rfl⟩ := trace_pure.mp h₄
    obtain ⟨rfl, rfl⟩ := trace_pure.mp h₂
    exact .failed [] values id
  | true =>
    obtain ⟨tr₅, n, tr₆, rfl, h₅, h₆⟩ := trace_bind.mp h₄
    obtain rfl := trace_call.mp h₅
    obtain ⟨rfl, rfl⟩ := trace_pure.mp h₆
    obtain ⟨rfl, rfl⟩ := trace_pure.mp h₂
    exact .counted [] values id n

theorem trace_sqliteUpdate {turns : Nat} {s : Session} {tr : List (Event (Sys.sum SqliteSig))} {rc : Int}
    (h : Trace (sqliteApi turns (.update s)) tr rc) : UpdateTrace tr rc := by
  change Trace ((sqliteUpdate s).over (stepwise turns)) tr rc at h
  unfold sqliteUpdate at h
  cases hid : s.id with
  | none =>
    simp only [hid] at h
    obtain ⟨rfl, rfl⟩ := trace_pure.mp h
    exact .unsent []
  | some id =>
    simp only [hid, over_bind, over_lift] at h
    obtain ⟨tr₁, b, tr₂, rfl, h₁, h₂⟩ := trace_bind.mp h
    obtain ⟨tr₁, rfl, -⟩ := trace_lift.mp h₁
    refine UpdateTrace.lift ?_
    cases b with
    | false =>
      obtain ⟨rfl, rfl⟩ := trace_pure.mp h₂
      exact .unsent []
    | true =>
      simp only [Bool.not_true, Bool.false_eq_true, if_false, over_bind, over_lift] at h₂
      obtain ⟨tr₃, out, tr₄, rfl, h₃, h₄⟩ := trace_bind.mp h₂
      obtain ⟨tr₃, rfl, -⟩ := trace_lift.mp h₃
      refine UpdateTrace.lift ?_
      cases out with
      | none =>
        obtain ⟨rfl, rfl⟩ := trace_pure.mp h₄
        exact .unsent []
      | some expiresAt =>
        simp only [over_bind, over_lift] at h₄
        obtain ⟨tr₅, b, tr₆, rfl, h₅, h₆⟩ := trace_bind.mp h₄
        obtain ⟨tr₅, rfl, -⟩ := trace_lift.mp h₅
        refine UpdateTrace.lift ?_
        cases b with
        | false =>
          obtain ⟨rfl, rfl⟩ := trace_pure.mp h₆
          exact .unsent []
        | true =>
          simp only [Bool.not_true, Bool.false_eq_true, if_false, over_bind] at h₆
          obtain ⟨tr₇, changes, tr₈, rfl, h₇, h₈⟩ := trace_bind.mp h₆
          rw [sqlStep, over_call (T := SqlSig)] at h₇
          refine trace_stepwise_update (trace_bind.mpr ⟨tr₇, changes, tr₈, rfl, h₇, ?_⟩)
          cases changes <;> exact h₈

/-! ## What an update reports -/

section

open ConnectionPool

variable {ι : Type} [DecidableEq ι] {L : Extern} {cfg : ManagerConfig} {turns : Nat} {calls : ι → SqliteCall}
  {h : List (ConnectionMove ι)} {P : ConnectionPool ι}

theorem trace_returned (hrun : ConnectionPool.ConnectionRun L cfg turns calls h P) {i : ι} {r : Int × Int}
    (hret : P.threads i = .ret r) :
    Trace (((calls i).program L cfg).over (sqliteApi turns)) (Pool.eventsOf i h) r := by
  obtain ⟨handle, hrun⟩ := hrun
  have hsteps := Pool.steps hrun i
  rw [hret] at hsteps
  exact steps_ret.mp hsteps

theorem trace_updateCall {session : Session} {tr : List (Event (Sys.sum SqliteSig))} {rc status : Int}
    (h : Trace (((SqliteCall.update session).program L cfg).over (sqliteApi turns)) tr (rc, status)) :
    UpdateTrace tr rc := by
  unfold SqliteCall.program storeUpdate at h
  simp only [over_bind, over_call (T := StoreSig)] at h
  obtain ⟨tr₁, rc', tr₂, rfl, h₁, h₂⟩ := trace_bind.mp h
  obtain ⟨rfl, heq⟩ := trace_pure.mp h₂
  obtain ⟨rfl, rfl⟩ := Prod.mk.inj heq
  rw [List.append_nil]
  exact trace_sqliteUpdate h₁

theorem not_updates {tr : List (Event (Sys.sum SqliteSig))} {i : ι} (hevents : Pool.eventsOf i h = tr)
    (hno : ∀ values id, (⟨.inr (.write (.update values id)), true⟩ : Event (Sys.sum SqliteSig)) ∉ tr) :
    ∀ t ∈ h, ¬ Updates i t := by
  rintro t ht ⟨values, id, hlabel⟩
  exact hno values id (hevents ▸ Pool.mem_eventsOf.mpr ⟨t, ht, hlabel⟩)

theorem update_reports (hrun : ConnectionPool.ConnectionRun L cfg turns calls h P) {i : ι} {rc : Int}
    (htrace : UpdateTrace (Pool.eventsOf i h) rc) : (rc = 0 ↔ ∃ t ∈ h, Matches i t) ↔ ¬ Disturbed i h := by
  -- without an `UPDATE` that is done the code is -1, and nothing can disturb it
  have hundone : (∀ t ∈ h, ¬ Updates i t) → ((-1 : Int) = 0 ↔ ∃ t ∈ h, Matches i t) ∧ ¬ Disturbed i h := by
    intro hno
    refine ⟨iff_of_false (by decide) ?_, ?_⟩
    · rintro ⟨t, ht, values, id, hlabel, -⟩
      exact hno t ht ⟨values, id, hlabel⟩
    · rintro ⟨h₁, t, _, _, _, _, _, rfl, ht, -⟩
      exact hno t (List.mem_append_right _ List.mem_cons_self) ht
  generalize hevents : Pool.eventsOf i h = tr at htrace
  cases htrace with
  | unsent tr =>
    have hno := hundone (not_updates hevents fun values id hmem => by
      obtain ⟨e, -, he⟩ := List.mem_map.mp hmem
      cases he)
    exact iff_of_true hno.1 hno.2
  | failed tr values id =>
    have hno := hundone (not_updates hevents fun values id hmem => by
      rcases List.mem_append.mp hmem with hmem | hmem
      · obtain ⟨e, -, he⟩ := List.mem_map.mp hmem
        cases he
      · cases List.mem_singleton.mp hmem)
    exact iff_of_true hno.1 hno.2
  | counted tr values id n =>
    obtain ⟨h₁, t, h₂, t', h₃, rfl, hc, h₁eq, h₃eq⟩ := exists_counted hevents
    obtain ⟨handle, hrun⟩ := hrun
    have hmatch : (∃ t₀ ∈ h₁ ++ t :: (h₂ ++ t' :: h₃), Matches i t₀) ↔ t.pre.shared.db.find id ≠ none := by
      constructor
      · rintro ⟨t₀, ht₀, values', id', hlabel, hfind⟩
        obtain ⟨k₁, k₂, heq⟩ := List.append_of_mem ht₀
        obtain ⟨-, rfl, -⟩ := hc.only h₁eq h₃eq heq.symm ⟨values', id', hlabel⟩
        cases hlabel.symm.trans hc.update
        exact hfind
      · exact fun hfind => ⟨t, List.mem_append_right _ List.mem_cons_self, values, id, hc.update, hfind⟩
    have hrc : (if n > 0 then (0 : Int) else -1) = 0 ↔ 0 < n := by
      split <;> simp_all
    rw [hmatch, hrc, hc.iff hrun]
    exact not_congr ⟨hc.disturbed, hc.turned h₁eq h₃eq⟩

/-- A refresh that is granted has had its update answered with 0. -/
theorem refresh_matches (hrun : ConnectionPool.ConnectionRun L cfg turns calls h P) {i : ι}
    {sessionId header : Option CStr} {rc : Int}
    (htrace : Trace (((SqliteCall.refresh sessionId header).program L cfg).over (sqliteApi turns))
      (Pool.eventsOf i h) (rc, 200))
    (hquiet : ¬ Disturbed i h) : ∃ t ∈ h, Matches i t := by
  obtain ⟨tr', htrace', hcalls⟩ := trace_over_calls htrace
  obtain ⟨tr₁, r, tr₂, rfl, h₁, h₂⟩ := trace_bind.mp htrace'
  obtain ⟨rfl, heq⟩ := trace_pure.mp h₂
  obtain ⟨rfl, hstatus⟩ := Prod.mk.inj heq
  have hupdate : ∃ s, answered (.update s) 0 ∈ tr₁ := by
    cases trace_refresh h₁ with
    | refused href => exact absurd hstatus.symm href.2
    | written rest hid hrewrites hr =>
      rcases hr with ⟨rfl, -⟩ | ⟨-, rfl⟩
      · exact ⟨_, List.mem_cons_of_mem _ (List.mem_append_right _ List.mem_cons_self)⟩
      · cases hstatus
  obtain ⟨s, hmem⟩ := hupdate
  obtain ⟨tr₃, tr₄, tr₅, hevents, hupdate⟩ := hcalls (.update s) 0 (List.mem_append_left _ hmem)
  have hcounted := trace_sqliteUpdate hupdate
  generalize hzero : (0 : Int) = code at hcounted
  cases hcounted with
  | unsent => cases hzero
  | failed => cases hzero
  | counted tr values id n =>
    have hpos : 0 < n := by
      by_contra hn
      rw [if_neg hn] at hzero
      cases hzero
    rw [List.append_assoc, ← List.append_assoc tr₃] at hevents
    obtain ⟨h₁, t, h₂, t', h₃, rfl, hc, -, -⟩ := exists_counted hevents
    obtain ⟨handle, hrun⟩ := hrun
    have hfind := ((hc.iff hrun).mpr fun hturned => hquiet (hc.disturbed hturned)).mp hpos
    exact ⟨t, List.mem_append_right _ List.mem_cons_self, values, id, hc.update, hfind⟩

/-- **When an SQLite update reports its own outcome**: exactly when no
statement of another call that comes out the other way is the last to run
between its own and the count. Then a refresh is granted only when its own
`UPDATE` has matched a row. -/
theorem sqlite_update_iff (hrun : ConnectionPool.ConnectionRun L cfg turns calls h P) (i : ι) :
    (∀ session rc status, calls i = .update session → P.threads i = .ret (rc, status) →
      ((rc = 0 ↔ ∃ t ∈ h, Matches i t) ↔ ¬ Disturbed i h)) ∧
    ∀ sessionId header rc, calls i = .refresh sessionId header → P.threads i = .ret (rc, 200) → ¬ Disturbed i h →
      ∃ t ∈ h, Matches i t := by
  constructor
  · intro session rc status hcall hret
    have htrace := trace_returned hrun hret
    rw [hcall] at htrace
    exact update_reports hrun (trace_updateCall htrace)
  · intro sessionId header rc hcall hret hquiet
    have htrace := trace_returned hrun hret
    rw [hcall] at htrace
    exact refresh_matches hrun htrace hquiet

end

/-! ## Runs -/

/-- The connection when no statement fails for other reasons than a constraint; listings are empty. -/
def sqliteServer : (o : SqliteOp) → SqliteHandle → o.Ans × SqliteHandle
  | .write o, handle => match handle.db.run o with
    | some (n, db) => (true, ⟨db, n⟩)
    | none => (false, handle)
  | .rowById id, handle => (handle.db.find id, handle)
  | .nextRow _, handle => (some none, handle)
  | .changes, handle => (handle.changes, handle)

theorem sqliteServer_handle (o : SqliteOp) (handle : SqliteHandle) :
    ∃ tr, sqliteHandle o handle tr (sqliteServer o handle).1 (sqliteServer o handle).2 := by
  refine ⟨[], rfl, ?_⟩
  cases o with
  | write o =>
    cases hrun : handle.db.run o with
    | none =>
      simp only [sqliteServer, hrun]
      exact .failed handle.changes
    | some r =>
      simp only [sqliteServer, hrun]
      exact .done hrun
  | rowById id => exact .found
  | nextRow userId => exact .nextRow _
  | changes => exact .changes

/-- The device's session, bound, as a row. -/
def deviceRow (challenge : CStr) : SqlRow where
  id := zeroId
  userId := "u".toList
  state := "bound".toList
  publicKey := some deviceJwk.render
  algorithm := some "ES256".toList
  challenge := some challenge
  expiresAt := none
  createdAt := "1970-01-01T00:00:00Z".toList

/-- The device's session and another one. -/
def twoRows : SqlDb :=
  ⟨[deviceRow (drawnChallenge 1), { deviceRow (drawnChallenge 2) with id := "b".toList }], by decide +kernel⟩

/-- The device's refresh, the deletion of its session, and that of the other one. -/
def refreshDuringDeletes : Fin 3 → SqliteCall
  | 0 => .refresh (some zeroId) (some (refreshToken (drawnChallenge 1)))
  | 1 => .other (.delete (some zeroId))
  | 2 => .other (.delete (some "b".toList))

def matchesRow {ι : Type} [DecidableEq ι] (i : ι) (t : ConnectionMove ι) : Bool :=
  match t.label with
  | some (j, ⟨.inr (.write (.update _ id)), done⟩) => decide (j = i) && done && (t.pre.shared.db.find id).isSome
  | _ => false

theorem matchesRow_iff {ι : Type} [DecidableEq ι] {i : ι} {t : ConnectionMove ι} :
    matchesRow i t = true ↔ ConnectionPool.Matches i t := by
  unfold matchesRow ConnectionPool.Matches
  split
  · rename_i j values id done hlabel
    rw [hlabel]
    simp [Option.isSome_iff_ne_none]
  · rename_i hother
    refine iff_of_false (by decide) ?_
    rintro ⟨values, id, hlabel, -⟩
    exact hother i values id true hlabel

theorem any_matchesRow {ι : Type} [DecidableEq ι] {i : ι} {h : List (ConnectionMove ι)} :
    h.any (matchesRow i) = true ↔ ∃ t ∈ h, ConnectionPool.Matches i t := by
  simp only [List.any_eq_true, matchesRow_iff]

theorem sqliteRun_play {ι : Type} [DecidableEq ι] {L : Extern} {cfg : ManagerConfig} {turns : Nat}
    {calls : ι → SqliteCall}
    {handle : SqliteHandle} {schedule : List ι} {h : List (ConnectionMove ι)} {P : ConnectionPool ι}
    (hplay : Pool.play runtimeEleven sqliteServer schedule (ConnectionPool.start L cfg turns calls handle) =
      some (h, P)) :
    ConnectionPool.ConnectionRun L cfg turns calls h P :=
  ⟨handle, Pool.run_play sqliteServer_handle hplay⟩

/-- The session is deleted after the refresh has read it, and the other one
before the refresh's update is counted: the refresh is granted. -/
theorem sqlite_refreshes_deleted : ¬ ∀ (ι : Type) [DecidableEq ι] (L : Extern) (cfg : ManagerConfig) (turns : Nat)
    (calls : ι → SqliteCall) (h : List (ConnectionMove ι)) (P : ConnectionPool ι), ConnectionPool.ConnectionRun L cfg turns calls h P → ∀ i,
      (∀ session rc status, calls i = .update session → P.threads i = .ret (rc, status) →
        (rc = 0 ↔ ∃ t ∈ h, ConnectionPool.Matches i t)) ∧
      ∀ sessionId header rc, calls i = .refresh sessionId header → P.threads i = .ret (rc, 200) →
        ∃ t ∈ h, ConnectionPool.Matches i t := by
  intro hclaim
  have hplayed :
    ((Pool.play runtimeEleven sqliteServer [0, 1, 0, 2, 0, 0] (ConnectionPool.start (deviceExtern [drawnChallenge 1])
      (plainConfig 0) 1 refreshDuringDeletes ⟨twoRows, 0⟩)).map fun r =>
        ((r.2.threads 0).returned, r.1.any (matchesRow 0))) =
      some (some (0, 200), false) := by
    decide +kernel
  obtain ⟨⟨h, P⟩, hplay, hresult⟩ := Option.map_eq_some_iff.mp hplayed
  obtain ⟨hret, hmatch⟩ := Prod.mk.inj hresult
  have hgranted := (hclaim _ _ _ _ _ h P (sqliteRun_play hplay) 0).2 _ _ _ rfl (returned_eq_some hret)
  rw [← any_matchesRow, hmatch] at hgranted
  cases hgranted

/-- The device's refresh, and an update of the other session. -/
def refreshAndUpdate : Fin 2 → SqliteCall
  | 0 => .refresh (some zeroId) (some (refreshToken (drawnChallenge 1)))
  | 1 => .update { deviceSession (drawnChallenge 2) with id := some ("b" : CStr) }

def isWrite {ι : Type} (t : ConnectionMove ι) : Bool :=
  match t.label with
  | some (_, ⟨.inr (.write _), _⟩) => true
  | _ => false

theorem isWrite_of_label {ι : Type} {t : ConnectionMove ι} {i : ι} {o : SqlOp} {x : Bool}
    (h : t.label = some (i, ⟨.inr (.write o), x⟩)) : isWrite t = true := by
  unfold isWrite
  rw [h]

/-- It takes two statements that write. -/
theorem not_disturbed {ι : Type} [DecidableEq ι] {i : ι} {h : List (ConnectionMove ι)} (hone : h.countP isWrite = 1) :
    ¬ ConnectionPool.Disturbed i h := by
  rintro ⟨h₁, t, h₂, w, h₃, t', h₄, rfl, ⟨_, _, ht⟩, -, ⟨_, _, _, hw⟩, -⟩
  simp only [List.countP_append, List.countP_cons, isWrite_of_label ht, isWrite_of_label hw, if_true] at hone
  omega

/-- The refresh made alone, and the update made alone. -/
theorem sqlite_update_reported : ∃ (h₁ h₂ : List (ConnectionMove (Fin 2))) (P₁ P₂ : ConnectionPool (Fin 2)),
    P₁.threads 0 = .ret (0, 200) ∧ (∃ t ∈ h₁, ConnectionPool.Matches 0 t) ∧
    P₂.threads 1 = .ret (0, 0) ∧ (∃ t ∈ h₂, ConnectionPool.Matches 1 t) ∧ ¬ ConnectionPool.Disturbed 1 h₂ := by
  have hplayed₁ :
    ((Pool.play runtimeEleven sqliteServer [0, 0, 0, 0] (ConnectionPool.start (deviceExtern [drawnChallenge 1])
      (plainConfig 0) 1 refreshAndUpdate ⟨twoRows, 0⟩)).map fun r => ((r.2.threads 0).returned, r.1.countP isWrite)) =
      some (some (0, 200), 1) := by
    decide +kernel
  have hplayed₂ :
    ((Pool.play runtimeEleven sqliteServer [1, 1, 1] (ConnectionPool.start (deviceExtern [drawnChallenge 1])
      (plainConfig 0) 1 refreshAndUpdate ⟨twoRows, 0⟩)).map fun r =>
        ((r.2.threads 1).returned, r.1.any (matchesRow 1))) =
      some (some (0, 0), true) := by
    decide +kernel
  obtain ⟨⟨h₁, P₁⟩, hplay₁, hresult₁⟩ := Option.map_eq_some_iff.mp hplayed₁
  obtain ⟨hret₁, hone⟩ := Prod.mk.inj hresult₁
  obtain ⟨⟨h₂, P₂⟩, hplay₂, hresult₂⟩ := Option.map_eq_some_iff.mp hplayed₂
  obtain ⟨hret₂, hmatch⟩ := Prod.mk.inj hresult₂
  have hmatches := any_matchesRow.mp hmatch
  refine ⟨h₁, h₂, P₁, P₂, returned_eq_some hret₁, ?_, returned_eq_some hret₂, hmatches, ?_⟩
  · exact (sqlite_update_iff (sqliteRun_play hplay₁) 0).2 _ _ _ rfl (returned_eq_some hret₁) (not_disturbed hone)
  · exact ((sqlite_update_iff (sqliteRun_play hplay₂) 1).1 _ _ _ rfl (returned_eq_some hret₂)).mp
      (iff_of_true rfl hmatches)

end OpenDbsc
