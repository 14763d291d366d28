/-
Expired sessions are cleaned up while other calls are under way.

A lookup reads a row, finds it expired and deletes by its id, in a statement
of its own. What it deletes is past its expiry as long as nothing has renewed
the row since it was read (`sqlite_cleans_expired`); a row that an update has
renewed in between is lost (`sqlite_loses_renewed`).
-/
import OpenDbsc.RedisPool
import OpenDbsc.SqliteSpec

namespace OpenDbsc

open Effects Prog

/-! ## What a row is read as, when memory may fail -/

theorem ensures_sessionSetColumns (row : SqlRow) :
    Ensures (sessionSetColumns row) fun out => ∀ s, out = some s → row.columns = some s := by
  unfold sessionSetColumns
  refine Ensures.bind (ensures_sessionSetId _ _) fun (rc, s₁) h₁ => ensures_guard (fun s h => nomatch h) fun hrc => ?_
  obtain rfl : s₁ = _ := h₁ hrc
  refine Ensures.bind (ensures_sessionSetUserId _ _) fun (rc, s₂) h₂ =>
    ensures_guard (fun s h => nomatch h) fun hrc => ?_
  obtain rfl : s₂ = _ := h₂ hrc
  unfold SqlRow.columns
  simp only
  split
  · exact Ensures.pure fun s h => nomatch h
  · refine Ensures.bind (ensures_sessionSetPublicKey _ _) fun (rc, s₃) h₃ =>
      ensures_guard (fun s h => nomatch h) fun hrc => ?_
    obtain rfl : s₃ = _ := h₃ hrc
    refine Ensures.bind (ensures_sessionSetAlgorithm _ _) fun (rc, s₄) h₄ =>
      ensures_guard (fun s h => nomatch h) fun hrc => ?_
    obtain rfl : s₄ = _ := h₄ hrc
    refine Ensures.bind (ensures_sessionSetChallenge _ _) fun (rc, s₅) h₅ =>
      ensures_guard (fun s h => nomatch h) fun hrc => ?_
    obtain rfl : s₅ = _ := h₅ hrc
    exact Ensures.pure fun s h => h

theorem ensures_sessionFromStmt (row : SqlRow) :
    Ensures (sessionFromStmt row) fun out => ∀ s, out = some s → row.session = some s := by
  unfold sessionFromStmt SqlRow.session
  refine Ensures.bind (ensures_sessionSetColumns row) fun columns hcolumns => ?_
  cases columns with
  | none => exact Ensures.pure fun s h => nomatch h
  | some session =>
    rw [hcolumns session rfl]
    exact Ensures.pure fun s h => h

/-! ## What a lookup deletes -/

/-- Each deletion by id is of one of `ids`. -/
def DeletesOf (ids : List CStr) (o : (Sys.sum SqlSig).Op) : Prop := ∀ id, o = .inr (.deleteById id) → id ∈ ids

theorem allOps_sqliteDelete {ids : List CStr} {id : CStr} (h : id ∈ ids) :
    AllOps (DeletesOf ids) (sqliteDelete id) := by
  refine AllOps.bind (allOps_lift (fun o id' h => nomatch h) _) fun b => ?_
  split
  · exact allOps_pure _
  · refine AllOps.bind (allOps_perform (S := Sys.sum SqlSig) fun id' heq => ?_) fun done => ?_
    · cases heq
      exact h
    · split <;> exact allOps_pure _

theorem allOps_sqliteDeleteEach (ids : List CStr) : AllOps (DeletesOf ids) (sqliteDeleteEach ids) := by
  induction ids with
  | nil => exact allOps_pure _
  | cons id rest ih =>
    unfold sqliteDeleteEach
    refine AllOps.bind (allOps_sqliteDelete List.mem_cons_self) fun _ => ih.mono fun o ho id' heq => ?_
    exact List.mem_cons_of_mem _ (ho id' heq)

theorem deletes_of_performs {α : Type} {p : SqlProg α} {ids : List CStr} (hp : AllOps (DeletesOf ids) p) {tr id}
    {done : Bool}
    (h : Performs p (tr ++ [⟨.inr (.deleteById id), done⟩])) : id ∈ ids := by
  obtain ⟨q, hsteps⟩ := h
  exact hp.steps hsteps ⟨.inr (.deleteById id), done⟩ (List.mem_append_right _ List.mem_cons_self) id rfl

/-- A `SELECT` that reads the row `id`. -/
def ReadsRow (id : CStr) (row : SqlRow) (e : Event (Sys.sum SqlSig)) : Prop :=
  e = ⟨.inr (.selectById id), some row⟩ ∨
    ∃ userId rows, e = ⟨.inr (.selectByUserId userId), (rows, true)⟩ ∧ row ∈ rows ∧ row.id = id

/-- Among the events, the row `id` is read, and the clock at which it is past its expiry. -/
def FindsExpired (id : CStr) (tr : List (Event (Sys.sum SqlSig))) : Prop :=
  ∃ tr₁ e tr₂ row s now, tr = tr₁ ++ e :: tr₂ ∧ ReadsRow id row e ∧ row.session = some s ∧ s.expiredAt now = true ∧
    ⟨.inl .time, now⟩ ∈ tr

theorem sqliteGet_deletes {id id' : CStr} {tr} {done : Bool}
    (h : Performs (sqliteGet id) (tr ++ [⟨.inr (.deleteById id'), done⟩])) : FindsExpired id' tr := by
  unfold sqliteGet at h
  obtain ⟨tr₁, b, tr, rfl, -, h₁⟩ := performs_lift_bind h
  cases b with
  | false => cases (List.append_eq_nil_iff.mp (performs_pure.mp h₁)).2
  | true =>
    obtain ⟨found, tr, rfl, h₂⟩ := performs_call_bind h₁ (fun h => nomatch h)
    cases found with
    | none => cases (List.append_eq_nil_iff.mp (performs_pure.mp h₂)).2
    | some row =>
      obtain ⟨tr₂, b, tr, rfl, -, h₃⟩ := performs_lift_bind h₂
      cases b with
      | false => cases (List.append_eq_nil_iff.mp (performs_pure.mp h₃)).2
      | true =>
        obtain ⟨tr₃, out, tr, rfl, hstmt, h₄⟩ := performs_lift_bind h₃
        cases out with
        | none => cases (List.append_eq_nil_iff.mp (performs_pure.mp h₄)).2
        | some s =>
          obtain ⟨tr₄, now, tr, rfl, htime, h₅⟩ := performs_lift_bind h₄
          obtain rfl := trace_perform.mp htime
          simp only at h₅
          split at h₅
          · rename_i hexpired
            have hall : AllOps (DeletesOf [id]) (sqliteDelete id >>= fun _ => (pure none : SqlProg (Option Session))) :=
              (allOps_sqliteDelete List.mem_cons_self).bind fun _ => allOps_pure _
            obtain rfl := List.mem_singleton.mp (deletes_of_performs hall h₅)
            refine ⟨tr₁.map Event.inl, ⟨.inr (.selectById id'), some row⟩, _, row, s, now, rfl, .inl rfl,
              ensures_sessionFromStmt row _ _ hstmt s rfl, hexpired, ?_⟩
            simp [Event.inl]
          · cases (List.append_eq_nil_iff.mp (performs_pure.mp h₅)).2

/-- The ids collected are of rows that have expired. -/
theorem ensures_sqliteCollect (now : Int) (rows : List SqlRow) (sessions : List Session) (expired : List CStr) :
    Ensures (sqliteCollect now rows sessions expired) fun out => ∀ ss ids, out = some (ss, ids) → ∀ id ∈ ids,
      id ∈ expired ∨ ∃ row ∈ rows, row.id = id ∧ ∃ s, row.session = some s ∧ s.expiredAt now = true := by
  induction rows generalizing sessions expired with
  | nil =>
    refine Ensures.pure fun ss ids h id hmem => .inl ?_
    cases h
    exact hmem
  | cons row rest ih =>
    have hmore : ∀ {id}, (∃ row ∈ rest, row.id = id ∧ ∃ s, row.session = some s ∧ s.expiredAt now = true) →
        ∃ row' ∈ row :: rest, row'.id = id ∧ ∃ s, row'.session = some s ∧ s.expiredAt now = true :=
      fun hin => hin.imp fun _ h => h.imp_left (List.mem_cons_of_mem _)
    unfold sqliteCollect
    refine Ensures.bind (ensures_sessionFromStmt row) fun out hout => ?_
    cases out with
    | none => exact Ensures.pure fun ss ids h => by cases h
    | some tmp =>
      have hsession := hout tmp rfl
      simp only
      split
      · rename_i hexpired
        refine Ensures.bind (P := fun copy => copy = some row.id ∨ copy = none) ?_ fun copy hcopy => ?_
        · unfold sqlCopyId strdup
          rw [(SqlRow.session_some hsession).1]
          refine Ensures.bind_any fun b => ?_
          cases b with
          | true => exact Ensures.pure (.inl rfl)
          | false => exact Ensures.pure (.inr rfl)
        · rcases hcopy with rfl | rfl
          · refine Ensures.bind_any fun b => ?_
            split
            · exact Ensures.pure fun ss ids h => by cases h
            · intro tr out htr ss ids h id hmem
              rcases ih _ _ tr out htr ss ids h id hmem with hin | hin
              · rcases List.mem_append.mp hin with hin | hin
                · exact .inl hin
                · exact .inr ⟨row, List.mem_cons_self, (List.mem_singleton.mp hin).symm, tmp, hsession, hexpired⟩
              · exact .inr (hmore hin)
          · exact Ensures.pure fun ss ids h => by cases h
      · refine Ensures.bind_any fun b => ?_
        split
        · exact Ensures.pure fun ss ids h => by cases h
        · exact fun tr out htr ss ids h id hmem => (ih _ _ tr out htr ss ids h id hmem).imp_right hmore

theorem performs_undefined {α : Type} {tr : List (Event (Sys.sum SqlSig))}
    (h : Performs (undefinedBehavior.lift : SqlProg α) tr) : tr = [] := by
  cases tr with
  | nil => rfl
  | cons e tr =>
    obtain ⟨x, -⟩ := performs_op.mp h
    nomatch x

theorem sqliteGetByUserId_deletes {userId id' : CStr} {tr} {done : Bool}
    (h : Performs (sqliteGetByUserId userId) (tr ++ [⟨.inr (.deleteById id'), done⟩])) : FindsExpired id' tr := by
  unfold sqliteGetByUserId at h
  obtain ⟨tr₁, b, tr, rfl, -, h₁⟩ := performs_lift_bind h
  cases b with
  | false => cases (List.append_eq_nil_iff.mp (performs_pure.mp h₁)).2
  | true =>
    obtain ⟨tr₂, b, tr, rfl, -, h₂⟩ := performs_lift_bind h₁
    cases b with
    | false =>
      cases (List.append_eq_nil_iff.mp (performs_undefined h₂)).2
    | true =>
      obtain ⟨tr₃, now, tr, rfl, htime, h₃⟩ := performs_lift_bind h₂
      obtain rfl := trace_perform.mp htime
      obtain ⟨⟨rows, read⟩, tr, rfl, h₄⟩ := performs_call_bind h₃ (fun h => nomatch h)
      obtain ⟨tr₄, out, tr, rfl, hcollect, h₅⟩ := performs_lift_bind h₄
      cases out with
      | none => cases (List.append_eq_nil_iff.mp (performs_pure.mp h₅)).2
      | some r =>
        obtain ⟨sessions, expired⟩ := r
        cases read with
        | false => cases (List.append_eq_nil_iff.mp (performs_pure.mp h₅)).2
        | true =>
          have hall : AllOps (DeletesOf expired)
              (sqliteDeleteEach expired >>= fun _ => (pure (some sessions) : SqlProg (Option (List Session)))) :=
            (allOps_sqliteDeleteEach expired).bind fun _ => allOps_pure _
          rcases ensures_sqliteCollect now rows [] [] _ _ hcollect sessions expired rfl id'
            (deletes_of_performs hall h₅) with
            hin | ⟨row, hrow, hkey, s, hsession, hexpired⟩
          · cases hin
          · refine ⟨tr₁.map Event.inl ++ (tr₂.map Event.inl ++ [⟨.inl .time, now⟩]),
              ⟨.inr (.selectByUserId userId), (rows, true)⟩,
              tr₄.map Event.inl ++ tr, row, s, now, by simp [Event.inl], .inr ⟨userId, rows, rfl, hrow, hkey⟩,
                hsession, hexpired, ?_⟩
            simp [Event.inl]

/-- A call that looks sessions up. -/
def StoreOp.IsLookup : StoreOp → Prop
  | .get _ => True
  | .getByUserId _ => True
  | _ => False

/-- **A lookup deletes only by an id whose row it has found expired.** -/
theorem lookup_deletes {op : StoreOp} (hop : op.IsLookup) {tr id} {done : Bool}
    (h : Performs (sqliteStore op) (tr ++ [⟨.inr (.deleteById id), done⟩])) : FindsExpired id tr := by
  have hnone : ∀ {α : Type} {a : α}, ¬ Performs (pure a : SqlProg α) (tr ++ [⟨.inr (.deleteById id), done⟩]) := by
    intro α a hnone
    cases (List.append_eq_nil_iff.mp (performs_pure.mp hnone)).2
  cases op with
  | get id' =>
    cases id' with
    | none => exact absurd h hnone
    | some id' => exact sqliteGet_deletes h
  | getByUserId userId =>
    cases userId with
    | none => exact absurd h hnone
    | some userId => exact sqliteGetByUserId_deletes h
  | _ => exact hop.elim

/-! ## Calls at once -/

/-- The database, and the time. -/
structure SqlWorld where
  db : SqlDb
  clock : Int

/-- The time goes on. -/
def SqlWorld.Ticks (w w' : SqlWorld) : Prop := w'.db = w.db ∧ w.clock ≤ w'.clock

/-- A statement takes no time. -/
def timedConnection : Comp Sys SqlSig SqlWorld :=
  fun o w tr x w' => sqlConnection o w.db tr x w'.db ∧ w'.clock = w.clock

/-- The calls at once, on one database. -/
abbrev SqlitePool {ι : Type} (calls : ι → StoreOp) := Pool Sys SqlSig (fun i => (calls i).Ans) SqlWorld

namespace SqlitePool

variable {ι : Type} {calls : ι → StoreOp}

def start (calls : ι → StoreOp) (w : SqlWorld) : SqlitePool calls := ⟨fun i => sqliteStore (calls i), w⟩

abbrev Move (calls : ι → StoreOp) := Transition (SqlitePool calls) (Pool.Label Sys SqlSig ι)

/-- Call `i` gets the answer to a statement. -/
def Answered (t : Move calls) (i : ι) (o : SqlOp) (x : o.Ans) : Prop := t.label = some (i, ⟨.inr o, x⟩)

end SqlitePool

open SqlitePool

section

variable {ι : Type} {calls : ι → StoreOp}

/-- Each call that asks for the time gets it. -/
def ReadsClock (h : List (Move calls)) : Prop :=
  ∀ t ∈ h, ∀ i now, t.label = some (i, ⟨.inl .time, now⟩) → now = t.pre.shared.clock

/-- An `expires_at` that is in the past. -/
def Past (expiresAt : Option CStr) (clock : Int) : Prop :=
  ∃ text e, expiresAt = some text ∧ parseRfc3339Utc text = some e ∧ e < clock

/-- A statement writes the row `id`, with this expiry. -/
inductive WritesRow (id : CStr) (expiresAt : Option CStr) (t : Move calls) : Prop
  | insert {i values createdAt} (h : SqlitePool.Answered t i (.insert id values createdAt) true)
    (he : values.expiresAt = expiresAt)
  | update {i values n} (h : SqlitePool.Answered t i (.update values id) (some (n + 1)))
    (he : values.expiresAt = expiresAt)

/-- The deletion by id of a lookup. -/
def CleansUp (i : ι) (id : CStr) (t : Move calls) : Prop :=
  (calls i).IsLookup ∧ ∃ done, SqlitePool.Answered t i (.deleteById id) done

/-- A lookup removes no row whose expiry is null or not in the past. -/
def CleansExpired (h : List (Move calls)) : Prop :=
  ∀ t ∈ h, ∀ i id, CleansUp i id t → ∀ row ∈ t.pre.shared.db.rows, row ∉ t.post.shared.db.rows →
    Past row.expiresAt t.pre.shared.clock

/-- What a lookup is about to delete, after `h`, has not been renewed since the lookup read it. -/
def DeletesUnrenewed (h : List (Move calls)) (t : Move calls) : Prop :=
  ∀ i id, CleansUp i id t → ∀ (h₁ : List (Move calls)) ts h₂ row e, h = h₁ ++ ts :: h₂ → ts.label = some (i, e) →
    ReadsRow id row e →
    ∀ t' ∈ h₂, ∀ expiresAt, WritesRow id expiresAt t' → Past expiresAt t.pre.shared.clock

end

/-- A row that has been read is there. -/
theorem ReadsRow.stored {id : CStr} {row : SqlRow} {o : SqlOp} {x : o.Ans} (h : ReadsRow id row ⟨.inr o, x⟩)
    {db db' : SqlDb}
    {tr} (hserve : sqlConnection o db tr x db') : row ∈ db'.rows ∧ row.id = id := by
  rcases h with heq | ⟨userId, rows, heq, hrow, hid⟩
  · cases heq
    rcases hserve with ⟨-, rfl, hreorders⟩ | ⟨-, -, hfails⟩
    · exact SqlDb.mem_of_find ((SqlOp.reorders_iff fun _ => SqlOp.noConfusion).mp hreorders).symm
    · cases hfails
  · cases heq
    rcases hserve with ⟨-, rfl, hreorders⟩ | ⟨-, -, hfails⟩
    · obtain ⟨ys, hperm, heq⟩ := SqlOp.reorders_rows.mp hreorders
      cases heq
      exact ⟨List.mem_of_mem_filter (hperm.mem_iff.mpr hrow), hid⟩
    · cases hfails

theorem SqlDb.mem_insert {db : SqlDb} {id : CStr} {values : SqlValues} {createdAt : CStr} {row : SqlRow}
    (h : row ∈ (db.answer (.insert id values createdAt)).2.rows) : row ∈ db.rows ∨
      (db.answer (.insert id values createdAt)).1 = true ∧ row.id = id ∧ row.expiresAt = values.expiresAt := by
  cases hnew : newRow id values createdAt with
  | none =>
    simp only [answer, hnew] at h
    exact .inl h
  | some new =>
    by_cases hnone : db.find new.id = none
    · simp only [answer, hnew, dif_pos hnone] at h ⊢
      rcases List.mem_append.mp h with h | h
      · exact .inl h
      · obtain rfl := List.mem_singleton.mp h
        obtain ⟨userId, -, rfl⟩ := Option.map_eq_some_iff.mp hnew
        exact .inr ⟨trivial, rfl, rfl⟩
    · simp only [answer, hnew, dif_neg hnone] at h
      exact .inl h

theorem SqlDb.mem_update {db : SqlDb} {id : CStr} {values : SqlValues} {row : SqlRow}
    (h : row ∈ (db.answer (.update values id)).2.rows) : row ∈ db.rows ∨
      (db.answer (.update values id)).1 = some 1 ∧ row.id = id ∧ row.expiresAt = values.expiresAt := by
  cases hfind : db.find id with
  | none =>
    simp only [answer, hfind] at h
    exact .inl h
  | some old =>
    cases huser : values.userId with
    | none =>
      simp only [answer, hfind, huser] at h
      exact .inl h
    | some userId =>
      simp only [answer, hfind, huser] at h ⊢
      obtain ⟨row', hrow', hset⟩ := List.mem_map.mp h
      split at hset
      · rename_i hid
        subst hset
        exact .inr ⟨trivial, hid, rfl⟩
      · exact .inl (hset ▸ hrow')

section

variable {ι : Type} [DecidableEq ι] {calls : ι → StoreOp} {w₀ : SqlWorld} {h : List (Move calls)}
  {P P' P₀ : SqlitePool calls}

theorem clock_mono (hrun : Run (Pool.Step timedConnection SqlWorld.Ticks) P₀ h P) :
    P₀.shared.clock ≤ P.shared.clock := by
  induction hrun with
  | init => exact Int.le_refl _
  | step _ hs ih =>
    refine Int.le_trans ih ?_
    cases hs with
    | self htick => exact htick.2
    | @thread i e p st hthread =>
      obtain ⟨o, x⟩ := e
      have heffect := hthread.effect
      cases o with
      | inl o =>
        obtain rfl : st = _ := heffect
        exact Int.le_refl _
      | inr o =>
        obtain ⟨tr, -, hclock⟩ := heffect
        exact Int.le_of_eq hclock.symm

/-- A row past its expiry stays so, or goes, unless it is written. -/
theorem step_keeps_past {l} (hs : Pool.Step timedConnection SqlWorld.Ticks P l P') {id : CStr} {clock : Int}
    (hpast : ∀ row ∈ P.shared.db.rows, row.id = id → Past row.expiresAt clock)
    (hwrites : ∀ expiresAt, WritesRow id expiresAt ⟨P, l, P'⟩ → Past expiresAt clock) :
    ∀ row ∈ P'.shared.db.rows, row.id = id → Past row.expiresAt clock := by
  cases hs with
  | @self st htick =>
    show ∀ row ∈ st.db.rows, _
    rw [htick.1]
    exact hpast
  | @thread i e p st hthread =>
    show ∀ row ∈ st.db.rows, _
    obtain ⟨o, x⟩ := e
    have heffect := hthread.effect
    cases o with
    | inl o =>
      obtain rfl : st = _ := heffect
      exact hpast
    | inr o =>
      obtain ⟨tr, hserve, -⟩ := heffect
      rcases hserve with ⟨-, hdb, hreorders⟩ | ⟨-, hdb, -⟩
      · rw [hdb]
        cases o with
        | insert id' values createdAt =>
          have hx := (SqlOp.reorders_iff fun _ => SqlOp.noConfusion).mp hreorders
          intro row hrow hid
          rcases SqlDb.mem_insert hrow with hrow | ⟨hdone, rfl, hexpires⟩
          · exact hpast row hrow hid
          · rw [hexpires]
            subst hid
            rw [hdone] at hx
            subst hx
            exact hwrites _ (.insert rfl rfl)
        | update values id' =>
          have hx := (SqlOp.reorders_iff fun _ => SqlOp.noConfusion).mp hreorders
          intro row hrow hid
          rcases SqlDb.mem_update hrow with hrow | ⟨hdone, rfl, hexpires⟩
          · exact hpast row hrow hid
          · rw [hexpires]
            subst hid
            rw [hdone] at hx
            subst hx
            exact hwrites _ (.update rfl rfl)
        | selectById id' => exact hpast
        | selectByUserId userId => exact hpast
        | deleteById id' => exact fun row hrow => hpast row (List.mem_of_mem_filter hrow)
        | deleteByUserId userId => exact fun row hrow => hpast row (List.mem_of_mem_filter hrow)
      · rw [hdb]
        exact hpast

/-- And over a run in which it is not written. -/
theorem run_keeps_past (hrun : Run (Pool.Step timedConnection SqlWorld.Ticks) P h P') {id : CStr} {clock : Int}
    (hpast : ∀ row ∈ P.shared.db.rows, row.id = id → Past row.expiresAt clock)
    (hwrites : ∀ t ∈ h, ∀ expiresAt, WritesRow id expiresAt t → Past expiresAt clock) :
    ∀ row ∈ P'.shared.db.rows, row.id = id → Past row.expiresAt clock := by
  induction hrun with
  | init => exact hpast
  | step _ hs ih =>
    exact step_keeps_past hs (ih fun t ht => hwrites t (List.mem_append_left _ ht))
      (hwrites _ (List.mem_append_right _ List.mem_cons_self))

theorem step_serves {o : SqlOp} {x : o.Ans} {i : ι}
    (hs : Pool.Step timedConnection SqlWorld.Ticks P (some (i, ⟨.inr o, x⟩)) P') :
    ∃ tr, sqlConnection o P.shared.db tr x P'.shared.db := by
  cases hs with
  | thread hthread =>
    obtain ⟨tr, hserve, -⟩ := hthread.effect
    exact ⟨tr, hserve⟩

/-- A run of the calls over a connection that may fail, on one clock. -/
abbrev SqliteRun (calls : ι → StoreOp) (w₀ : SqlWorld) (h : List (Move calls)) (P : SqlitePool calls) : Prop :=
  Run (Pool.Step timedConnection SqlWorld.Ticks) (SqlitePool.start calls w₀) h P

/-- What a lookup finds expired is past its expiry from then on, unless it is written. -/
theorem past_when_deleted {h₁ t h₂} (hrun : SqliteRun calls w₀ (h₁ ++ t :: h₂) P) (hclock : ReadsClock (h₁ ++ t :: h₂))
    (hcond : DeletesUnrenewed h₁ t) {i id} (hclean : CleansUp i id t) :
    ∀ row ∈ t.pre.shared.db.rows, row.id = id → Past row.expiresAt t.pre.shared.clock := by
  obtain ⟨hlookup, done, hdel⟩ := hclean
  obtain ⟨tr₁, e, tr₂, row, s, now, htr, hreads, hsession, hexpired, htime⟩ :=
    lookup_deletes hlookup (Pool.performs hrun hdel)
  obtain ⟨g, ts, g', rfl, hts, -, -⟩ := Pool.eventsOf_split htr
  obtain ⟨hrun₁, -, -⟩ := Pool.transition hrun
  obtain ⟨-, hread, hrun₂⟩ := Pool.transition hrun₁
  have hnow : now ≤ t.pre.shared.clock := by
    obtain ⟨tt, htt, hlabel⟩ := Pool.mem_eventsOf.mp htime
    obtain ⟨k, k', hk⟩ := List.append_of_mem htt
    rw [hclock tt (List.mem_append_left _ htt) i now hlabel]
    rw [hk] at hrun₁
    obtain ⟨-, hstep, hrest⟩ := Pool.transition hrun₁
    exact clock_mono (Run.cons hstep hrest)
  obtain ⟨o, x⟩ := e
  have hstored : row ∈ ts.post.shared.db.rows ∧ row.id = id := by
    cases o with
    | inl o =>
      rcases hreads with heq | ⟨_, _, heq, -⟩
      · cases heq
      · cases heq
    | inr o =>
      rw [hts] at hread
      obtain ⟨tr, hserve⟩ := step_serves hread
      exact hreads.stored hserve
  have hpast : Past row.expiresAt t.pre.shared.clock := by
    unfold Session.expiredAt at hexpired
    rw [Bool.and_eq_true, decide_eq_true_iff] at hexpired
    obtain ⟨text, htext, hparse⟩ := (SqlRow.session_some hsession).2.2.1 hexpired.1
    exact ⟨text, s.expiresAt, htext, hparse, by omega⟩
  refine run_keeps_past hrun₂ (fun row' hrow' hid => ?_) fun t' ht' expiresAt hwrites => ?_
  · rw [SqlDb.unique hrow' hstored.1 (hid.trans hstored.2.symm)]
    exact hpast
  · exact hcond i id ⟨hlookup, done, hdel⟩ g ts g' row _ rfl hts hreads t' ht' expiresAt hwrites

/-- **A lookup deletes only what is past its expiry.** In every run in which
no lookup deletes by an id whose row has been renewed since the lookup read
it, each row a lookup removes has an expiry in the past. -/
theorem sqlite_cleans_expired (hrun : SqliteRun calls w₀ h P) (hclock : ReadsClock h)
    (hcond : Throughout DeletesUnrenewed h) : CleansExpired h := by
  intro t ht i id hclean row hrow hgone
  obtain ⟨h₁, h₂, rfl⟩ := List.append_of_mem ht
  have hpast := past_when_deleted hrun hclock (hcond h₁ t h₂ rfl) hclean row hrow
  obtain ⟨-, hstep, -⟩ := Pool.transition hrun
  obtain ⟨-, done, hdel⟩ := hclean
  rw [show t.label = _ from hdel] at hstep
  obtain ⟨tr, hserve⟩ := step_serves hstep
  rcases hserve with ⟨-, hdb, -⟩ | ⟨-, hdb, -⟩
  · refine hpast ?_
    by_contra hid
    rw [hdb] at hgone
    exact hgone (List.mem_filter.mpr ⟨hrow, by simpa using hid⟩)
  · rw [hdb] at hgone
    exact absurd hrow hgone

end

/-! ## Concrete interleavings -/

/-- Every statement is done. -/
def steadySql (o : SqlOp) (w : SqlWorld) : o.Ans × SqlWorld := ((w.db.answer o).1, ⟨(w.db.answer o).2, w.clock⟩)

theorem steadySql_connection (o : SqlOp) (w : SqlWorld) :
    ∃ tr, timedConnection o w tr (steadySql o w).1 (steadySql o w).2 :=
  ⟨[], .inl ⟨rfl, rfl, .refl _⟩, rfl⟩

/-- A run in which time stands still. -/
theorem clock_const {ι : Type} [DecidableEq ι] {calls : ι → StoreOp} {h : List (Move calls)} {P P₀ : SqlitePool calls}
    (hrun : Run (Pool.Step timedConnection fun _ _ => False) P₀ h P) : P.shared.clock = P₀.shared.clock := by
  induction hrun with
  | init => rfl
  | step _ hs ih =>
    refine Eq.trans ?_ ih
    cases hs with
    | self hno => exact hno.elim
    | @thread i e p st hthread =>
      obtain ⟨o, x⟩ := e
      have heffect := hthread.effect
      cases o with
      | inl o =>
        obtain rfl : st = _ := heffect
        rfl
      | inr o =>
        obtain ⟨tr, -, hclock⟩ := heffect
        exact hclock

/-- What is played is on one clock. -/
theorem readsClock_play {ι : Type} [DecidableEq ι] {calls : ι → StoreOp} {h : List (Move calls)}
    {P P₀ : SqlitePool calls}
    {schedule : List ι} (hplay : Pool.play (steadySys P₀.shared.clock) steadySql schedule P₀ = some (h, P)) :
    ReadsClock h := by
  intro t ht i now hlabel
  have hnow : some P₀.shared.clock = some now := Pool.answered_play hplay ht hlabel
  obtain ⟨h₁, h₂, rfl⟩ := List.append_of_mem ht
  obtain ⟨hrun, -, -⟩ := Pool.transition (Pool.run_play steadySql_connection hplay)
  rw [clock_const hrun]
  exact (Option.some.inj hnow).symm

/-- A lookup of a session and its renewal. -/
def renewDuringGet : Fin 2 → StoreOp
  | 0 => .get (some "a".toList)
  | 1 => .update { sessionInit with id := some "a".toList, userId := some "u".toList, expiresAt := 100, hasExpires := true }

/-- The session, past its expiry for a second. -/
def staleWorld : SqlWorld where
  db := ⟨[⟨"a".toList, "u".toList, "active".toList, none, none, none, some "1970-01-01T00:00:05Z".toList,
    "1970-01-01T00:00:00Z".toList⟩], by decide⟩
  clock := 6

/-- The lookup deletes it. -/
def deletesStale (t : Move renewDuringGet) : Bool :=
  match t.label with
  | some (0, ⟨.inr (.deleteById id), _⟩) => id == "a".toList
  | _ => false

theorem cleansUp_of_deletesStale {t : Move renewDuringGet} (h : deletesStale t = true) : CleansUp 0 "a" t := by
  unfold deletesStale at h
  split at h
  · rename_i id done hlabel
    obtain rfl := eq_of_beq h
    exact ⟨trivial, done, hlabel⟩
  · cases h

/-- A statement that writes a row is answered. -/
def answersWrite (t : Move renewDuringGet) : Bool :=
  match t.label with
  | some (_, ⟨.inr (.insert ..), _⟩) => true
  | some (_, ⟨.inr (.update ..), _⟩) => true
  | _ => false

theorem WritesRow.answersWrite {id : CStr} {expiresAt : Option CStr} {t : Move renewDuringGet}
    (h : WritesRow id expiresAt t) : OpenDbsc.answersWrite t = true := by
  unfold OpenDbsc.answersWrite
  cases h with
  | insert hanswered => rw [show t.label = _ from hanswered]
  | update hanswered => rw [show t.label = _ from hanswered]

/-- With no renewal the lookup deletes the session, which is past its expiry. -/
theorem sqlite_cleans_stale : ∃ h P, SqliteRun renewDuringGet staleWorld h P ∧ (∃ t ∈ h, CleansUp 0 "a" t) ∧
    CleansExpired h := by
  let played := Pool.play (steadySys 6) steadySql [0, 0] (SqlitePool.start renewDuringGet staleWorld)
  have hplayed :
    (played.map fun r => (r.1.any deletesStale, r.1.any answersWrite)) = some (true, false) := by decide +kernel
  obtain ⟨⟨h, P⟩, hplay, hany⟩ := Option.map_eq_some_iff.mp hplayed
  obtain ⟨hdeletes, hquiet⟩ := Prod.ext_iff.mp hany
  obtain ⟨t, ht, hclean⟩ := List.any_eq_true.mp hdeletes
  have hrun : SqliteRun renewDuringGet staleWorld h P := Pool.run_play steadySql_connection hplay
  have hclock : ReadsClock h := @readsClock_play _ _ _ h P (SqlitePool.start renewDuringGet staleWorld) [0, 0] hplay
  refine ⟨h, P, hrun, ⟨t, ht, cleansUp_of_deletesStale hclean⟩, sqlite_cleans_expired hrun hclock ?_⟩
  intro h₁ t h₂ hh i id _ g ts g' row e hg _ _ t' ht' expiresAt hwrites
  have hmem : t' ∈ h := by
    rw [hh, hg]
    simp [ht']
  exact absurd hwrites.answersWrite (List.any_eq_false.mp hquiet t' hmem)

/-- The lookup reads the row, the update renews it and answers 0, and the
lookup deletes it. -/
theorem sqlite_loses_renewed : ∃ h P, SqliteRun renewDuringGet staleWorld h P ∧ ReadsClock h ∧
    P.threads 1 = .ret (0 : Int) ∧ P.shared.db.find "a" = none ∧ ¬ CleansExpired h := by
  let removesRenewed (t : Move renewDuringGet) : Bool := deletesStale t && t.pre.shared.clock == 6 &&
    t.pre.shared.db.rows.any fun row =>
      !t.post.shared.db.rows.contains row && row.expiresAt == some "1970-01-01T00:01:40Z".toList
  let played := Pool.play (steadySys 6) steadySql [0, 1, 0] (SqlitePool.start renewDuringGet staleWorld)
  have hplayed : (played.map fun r => (r.1.any removesRenewed, (show Option Int from (r.2.threads 1).returned),
      r.2.shared.db.find "a")) = some (true, some 0, none) := by
    decide +kernel
  obtain ⟨⟨h, P⟩, hplay, hall⟩ := Option.map_eq_some_iff.mp hplayed
  obtain ⟨hany, hrest⟩ := Prod.ext_iff.mp hall
  obtain ⟨hzero, hnone⟩ := Prod.ext_iff.mp hrest
  have hclock : ReadsClock h := @readsClock_play _ _ _ h P (SqlitePool.start renewDuringGet staleWorld) [0, 1, 0] hplay
  refine ⟨h, P, Pool.run_play steadySql_connection hplay, hclock, returned_eq_some hzero, hnone, fun hcleans => ?_⟩
  obtain ⟨t, ht, hremoves⟩ := List.any_eq_true.mp hany
  simp only [removesRenewed, Bool.and_eq_true, List.any_eq_true, beq_iff_eq, Bool.not_eq_true'] at hremoves
  obtain ⟨⟨hdeletes, hsix⟩, row, hrow, hgone, hexpires⟩ := hremoves
  have hnot : row ∉ t.post.shared.db.rows := by
    intro hmem
    rw [List.contains_iff_mem.mpr hmem] at hgone
    cases hgone
  obtain ⟨text, e, htext, hparse, hlt⟩ := hcleans t ht 0 "a" (cleansUp_of_deletesStale hdeletes) row hrow hnot
  rw [hexpires] at htext
  obtain rfl := Option.some.inj htext
  have hhundred : parseRfc3339Utc "1970-01-01T00:01:40Z" = some 100 := by decide +kernel
  rw [hsix] at hlt
  rw [hparse] at hhundred
  have he : e = 100 := Option.some.inj hhundred
  omega

end OpenDbsc
