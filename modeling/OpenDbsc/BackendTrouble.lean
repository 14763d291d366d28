/-
A lookup that fails, and what the client is told.

The store interface has one answer for a session that is not there and for a
lookup that went wrong, and register, refresh and close make a 401 of it. So a
request is truthful about a session the store holds exactly when nothing goes
wrong in its lookup; what can go wrong differs from backend to backend
(`memory_truthful_iff`, `sqlite_truthful_iff`, `redis_truthful_iff`).
-/
import OpenDbsc.Allocations
import OpenDbsc.Effects.Over
import OpenDbsc.InternalErrors
import OpenDbsc.Noninterference
import OpenDbsc.RedisSpec
import OpenDbsc.SqliteCleanup

namespace OpenDbsc

open Effects Prog

/-! ## The requests on a session id -/

/-- The call looks `id` up. -/
inductive ResponseCall.On (id : CStr) : ResponseCall → Prop
  | register {cookie header : Option CStr} (h : nonEmpty cookie = some id) : On id (.register cookie header)
  | refresh {sessionId header : Option CStr} (h : nonEmpty sessionId = some id) : On id (.refresh sessionId header)
  | close {sessionId : Option CStr} (h : nonEmpty sessionId = some id) : On id (.close sessionId)

/-- The answer 401, which for a request on an id is "invalid session". -/
def Disowns (r : Int × ManagerResponse) : Prop := r.1 = 0 ∧ r.2.statusCode = 401

/-- An answer other than 401. -/
def Owns (r : Int × ManagerResponse) : Prop := r.2.statusCode ≠ 401

theorem disowns_refuse (text : CStr) : Ensures (sys (refuse 401 text)) Disowns :=
  Ensures.sys (ensures_refuse 401 text)

theorem owns_refuse {statusCode : Int} {text : CStr} (h : statusCode ≠ 401) :
    Ensures (sys (refuse statusCode text)) Owns := by
  refine Ensures.sys fun tr r ht hstatus => h ?_
  rw [← (ensures_refuse statusCode text tr r ht).2]
  exact hstatus

theorem owns_challengeAgain (s : Session) : Ensures (sys (challengeAgain s)) Owns := by
  refine Ensures.sys fun tr r ht hstatus => ?_
  rw [(ensures_challengeAgain s tr r ht).2] at hstatus
  cases hstatus

section

variable {L : Extern} {cfg : ManagerConfig}

theorem owns_renewSession (type detail : CStr) (s : Session) : Ensures (renewSession L cfg type detail s) Owns := by
  unfold renewSession
  refine Ensures.bind_any fun challenge => ?_
  cases challenge with
  | none => exact Ensures.pure nofun
  | some challenge =>
    refine Ensures.bind_any fun (_, s₁) => Ensures.bind_any fun s₂ => Ensures.bind_any fun rc => ?_
    split
    · exact Ensures.pure nofun
    · refine Ensures.bind_any fun _ => Ensures.sys fun tr r ht hstatus => ?_
      rw [(ensures_acceptedResponse L cfg s₂ tr r ht).2] at hstatus
      cases hstatus

/-- What a request on an id makes of its lookup: 401 of a failure, and of nothing else. -/
theorem ResponseCall.On.lookup {id : CStr} {call : ResponseCall} (h : call.On id) (resp : ManagerResponse) :
    ∃ rest : Option Session → Request (Int × ManagerResponse), call.program L cfg resp = storeGet id >>= rest ∧
      Ensures (rest none) Disowns ∧ ∀ s, Ensures (rest (some s)) Owns := by
  cases h with
  | @register cookie header hid =>
    simp only [program, managerRegister, hid]
    refine ⟨_, rfl, disowns_refuse _, fun s => ?_⟩
    simp only
    split
    · exact owns_refuse (by decide)
    cases nonEmpty header with
    | none => exact owns_challengeAgain s
    | some token =>
      refine Ensures.bind_any fun (rc, proof) => ?_
      simp only
      split
      · exact owns_challengeAgain s
      refine Ensures.bind_any fun same => ?_
      split
      · exact owns_challengeAgain s
      split
      · exact owns_challengeAgain s
      exact Ensures.bind_any fun (_, s₁) => Ensures.bind_any fun (_, s₂) => owns_renewSession _ _ s₂
  | @refresh sessionId header hid =>
    simp only [program, managerRefresh, hid]
    refine ⟨_, rfl, disowns_refuse _, fun s => ?_⟩
    simp only
    split
    · exact owns_refuse (by decide)
    cases nonEmpty header with
    | none => exact owns_challengeAgain s
    | some token =>
      cases s.publicKey with
      | none => exact owns_challengeAgain s
      | some key =>
        refine Ensures.bind_any fun (rc, proof) => ?_
        simp only
        split
        · exact owns_challengeAgain s
        refine Ensures.bind_any fun same => ?_
        split
        · exact owns_challengeAgain s
        · exact owns_renewSession _ _ s
  | @close sessionId hid =>
    simp only [program, managerClose, hid]
    refine ⟨_, rfl, disowns_refuse _, fun s => ?_⟩
    refine Ensures.bind_any fun user => ?_
    split
    · exact Ensures.pure nofun
    refine Ensures.bind_any fun body => ?_
    cases body with
    | none => exact Ensures.pure nofun
    | some body =>
      refine Ensures.bind_any fun setCookie => Ensures.bind_any fun rc => ?_
      split
      · exact Ensures.pure nofun
      · exact Ensures.bind_any fun _ => Ensures.pure nofun

end

/-- A 401 only when no session is held, and -1 when the lookup fails to find the one that is. -/
def Truthful (held : Prop) (found : Option Session) (r : Int × ManagerResponse) : Prop :=
  (Disowns r → ¬ held) ∧ (held → found = none → r.1 = -1)

theorem truthful_iff {held : Prop} {found : Option Session} {r : Int × ManagerResponse}
    (hnone : found = none → Disowns r) (hsome : ∀ s, found = some s → Owns r) :
    Truthful held found r ↔ (held → found ≠ none) := by
  constructor
  · intro h hheld hfound
    exact h.1 (hnone hfound) hheld
  · intro h
    refine ⟨fun hdisowns hheld => ?_, fun hheld hfound => absurd hfound (h hheld)⟩
    obtain ⟨s, hs⟩ := Option.ne_none_iff_exists'.mp (h hheld)
    exact hsome s hs hdisowns.2

/-- Over any backend, it is the lookup's result that decides. -/
theorem lookup_truthful (L : Extern) (cfg : ManagerConfig) (resp : ManagerResponse) {id : CStr} {call : ResponseCall}
    (hon : call.On id) {U : Sig} {σ : Type} {B : Comp Sys U σ} {I : (o : StoreOp) → Prog (Sys.sum U) (StoreOp.Ans o)}
    {st st' : σ} {tr : List (Event (Sys.sum U))} {r : Int × ManagerResponse}
    (h : Exec B ((call.program L cfg resp).over I) st tr r st') :
    ∃ tr₁ found st₁ tr₂, tr = tr₁ ++ tr₂ ∧ Exec B (I (.get (some id))) st tr₁ found st₁ ∧
      ∀ held, Truthful held found r ↔ (held → found ≠ none) := by
  obtain ⟨rest, hrest, hnone, hsome⟩ := @hon.lookup L cfg id call resp
  rw [hrest, storeGet, over_bind, over_call] at h
  obtain ⟨tr₁, found, st₁, tr₂, rfl, hget, hafter⟩ := exec_bind.mp h
  refine ⟨tr₁, found, st₁, tr₂, rfl, hget, fun held => truthful_iff (fun hf => ?_) fun s hf => ?_⟩
  · subst hf
    exact hnone.over.exec hafter
  · subst hf
    exact (hsome s).over.exec hafter

/-! ## What does not read the clock -/

/-- Not a look at the clock. -/
def Unclocked {T : Sig} (o : (Sys.sum T).Op) : Prop := o ≠ .inl .time

section

variable {T : Sig} {α : Type}

theorem OnlyAllocates.unclocked {p : Prog Sys α} (h : OnlyAllocates p) : AllOps (Unclocked (T := T)) p.lift := by
  induction p with
  | ret a => exact trivial
  | op o k ih =>
    refine ⟨fun ho => ?_, fun x => ih x (h.2 x)⟩
    cases ho
    exact h.1 rfl

theorem unclocked_call (o : T.Op) : AllOps Unclocked (call (S := Sys) o) :=
  allOps_perform (S := Sys.sum T) nofun

theorem unclocked_trace {p : Prog (Sys.sum T) α} (h : AllOps Unclocked p) {tr a} (ht : Trace p tr a) :
    readings (envEvents tr) = [] := by
  refine List.filterMap_eq_nil_iff.mpr fun e he => ?_
  obtain ⟨⟨o, x⟩, hmem, henv⟩ := List.mem_filterMap.mp he
  have hop := h.trace ht _ hmem
  cases o with
  | inr o => cases henv
  | inl o =>
    obtain rfl := Option.some.inj henv
    cases o with
    | time => exact absurd rfl hop
    | _ => rfl

end

/-- `now` is what the clock shows when it is first read. -/
def FirstReads (now : Int) (tr : List (Event Sys)) : Prop := ∀ x, (readings tr).head? = some x → x = now

theorem firstReads_append {now : Int} {tr tr' : List (Event Sys)} (h : readings tr = []) :
    FirstReads now (tr ++ tr') ↔ FirstReads now tr' := by
  unfold FirstReads
  rw [readings_append, h, List.nil_append]

theorem firstReads_time {now x : Int} {tr : List (Event Sys)} : FirstReads now (⟨.time, x⟩ :: tr) ↔ x = now :=
  ⟨fun h => h x rfl, fun h _ hy => (Option.some.inj hy).symm.trans h⟩

/-! ## The memory store -/

theorem MemoryStore.record_of_find {ms : MemoryStore} {id : CStr} :
    ms.record id = (memoryStoreFind ms (some id)).map ms.sessions.get :=
  List.find?_eq_map_findFinIdx?_getElem

/-- A session that has not expired is stored under the id. -/
def MemoryStore.HoldsLive (ms : MemoryStore) (now : Int) (id : CStr) : Prop :=
  ∃ s, ms.record id = some s ∧ s.expiredAt now = false

/-- The expiry test cannot fail, and judges by the clock. -/
theorem isExpired_first {now : Int} {s : Session} {tr tr' : List (Event Sys)} {expired : Bool}
    (ht : Trace (memoryStoreIsExpired s) tr expired) (hfirst : FirstReads now (tr ++ tr')) :
    expired = s.expiredAt now ∧ Obeys allocOk tr := by
  unfold memoryStoreIsExpired at ht
  cases hexp : s.hasExpires with
  | false =>
    rw [hexp] at ht
    obtain ⟨rfl, rfl⟩ := trace_pure.mp ht
    exact ⟨by simp [Session.expiredAt, hexp], obeys_nil⟩
  | true =>
    rw [hexp] at ht
    obtain ⟨tr₁, x, tr₂, rfl, htime, hpure⟩ := trace_bind.mp ht
    obtain ⟨rfl, rfl⟩ := trace_pure.mp hpure
    obtain rfl := trace_time.mp htime
    have hx : x = now := firstReads_time.mp hfirst
    refine ⟨by simp [Session.expiredAt, hexp, hx], ?_⟩
    rw [List.append_nil, obeys_singleton]
    intro x hx
    cases hx

/-- The lookup of a session that has not expired fails exactly when an allocation does. -/
theorem memoryStoreGet_found {now : Int} {ms ms' : MemoryStore} {id : CStr} {s : Session} {tr : List (Event Sys)}
    {found : Option Session} (hs : ms.record id = some s) (hlive : s.expiredAt now = false)
    (ht : Trace (memoryStoreGet ms (some id)) tr (found, ms')) (hfirst : FirstReads now tr) :
    found ≠ none ↔ Obeys allocOk tr := by
  rw [MemoryStore.record_of_find, Option.map_eq_some_iff] at hs
  obtain ⟨idx, hf, hidx⟩ := hs
  unfold memoryStoreGet at ht
  simp only [hf] at ht
  rw [show ms.sessions[idx] = s from hidx] at ht
  obtain ⟨tr₁, expired, tr₂, rfl, hexpired, hrest⟩ := trace_bind.mp ht
  obtain ⟨hjudged, hobeys⟩ := isExpired_first hexpired hfirst
  rw [hjudged, hlive] at hrest
  rw [obeys_append, and_iff_right hobeys]
  refine (?_ : Reports (fun _ => True) allocOk (fun r : Option Session × MemoryStore => r.1 ≠ none) _).any hrest
  refine (reports_malloc _).bind (fun b hb => ?_) fun b hb => ?_
  · subst hb
    exact reports_guard (reports_sessionCopy s) (fun r h => h rfl) fun r _ => reports_pure (Option.some_ne_none _)
  · rw [eq_false_of_ne_true hb]
    exact Ensures.pure fun h => h rfl

/-- **Over the memory store** a request is truthful about a session exactly
when no allocation of its lookup fails. -/
theorem memory_truthful_iff (L : Extern) (cfg : ManagerConfig) (resp : ManagerResponse) {id : CStr}
    {call : ResponseCall}
    (hon : call.On id) {ms ms' : MemoryStore} {tr : List (Event (Sys.sum StoreSig))} {r : Int × ManagerResponse}
    (h : Exec memory.comp (call.program L cfg resp) ms tr r ms') :
    ∃ tr₁ found ms₁ tr₂, tr = tr₁.map Event.inl ++ answered (.get (some id)) found :: tr₂ ∧
      memory.comp (.get (some id)) ms tr₁ found ms₁ ∧ ∀ now, FirstReads now tr₁ →
        (Truthful (ms.HoldsLive now id) found r ↔ (ms.HoldsLive now id → Obeys allocOk tr₁)) := by
  obtain ⟨rest, hrest, hnone, hsome⟩ := @hon.lookup L cfg id call resp
  rw [hrest] at h
  obtain ⟨tr₀, found, ms₁, tr₂, rfl, hget, hafter⟩ := exec_bind.mp h
  obtain ⟨tr₁, rfl, hcall⟩ := exec_storeGet.mp hget
  refine ⟨tr₁, found, ms₁, tr₂, by simp, hcall, fun now hfirst => ?_⟩
  have htruthful : Truthful (ms.HoldsLive now id) found r ↔ _ :=
    truthful_iff (fun hf => by subst hf; exact hnone.exec hafter) fun s hf => by subst hf; exact (hsome s).exec hafter
  rw [htruthful]
  refine forall_congr' fun hheld => ?_
  obtain ⟨s, hs, hlive⟩ := hheld
  exact memoryStoreGet_found hs hlive hcall hfirst

/-! ## The SQLite store -/

/-- Not past an expiry that can be read; zero is no expiry. -/
def SqlRow.LiveAt (now : Int) (row : SqlRow) : Prop :=
  ∀ text e, row.expiresAt = some text → parseRfc3339Utc text = some e → e ≠ 0 → now ≤ e

theorem SqlRow.liveAt_iff {now : Int} {row : SqlRow} {s : Session} (h : row.session = some s) :
    row.LiveAt now ↔ s.expiredAt now = false := by
  rw [Session.expiredAt_eq_false]
  obtain ⟨base, hbase, h⟩ := Option.bind_eq_some_iff.mp h
  obtain ⟨timed, htimed, h⟩ := Option.bind_eq_some_iff.mp h
  obtain ⟨created, -, hs⟩ := Option.bind_eq_some_iff.mp h
  obtain rfl := Option.some.inj hs
  unfold LiveAt
  unfold sessionSetExpires at htimed
  split at htimed
  · rename_i hnone
    obtain rfl := Option.some.inj htimed
    rw [hnone]
    refine iff_of_true (fun text e h => nomatch h) fun hexp => ?_
    cases (columns_leaves hbase).2.2.symm.trans hexp
  · rename_i text htext
    obtain ⟨e, hparse, rfl⟩ := Option.map_eq_some_iff.mp htimed
    rw [htext]
    constructor
    · intro h hexp
      exact h text e rfl hparse (by simpa [sessionSetExpiresAt, sessionSetCreatedAt] using hexp)
    · intro h text' e' ht hp hne
      obtain rfl := Option.some.inj ht
      obtain rfl := Option.some.inj (hparse.symm.trans hp)
      exact h (by simpa [sessionSetExpiresAt, sessionSetCreatedAt] using hne)

/-- A row that is not past its expiry has the id. -/
def SqlDb.HoldsLive (db : SqlDb) (now : Int) (id : CStr) : Prop := ∃ row, db.find id = some row ∧ row.LiveAt now

theorem sessionSetStateStr_code (s s' : Session) (state : CStr) :
    (sessionSetStateStr s state).1 = (sessionSetStateStr s' state).1 := by
  unfold sessionSetStateStr
  split
  · rfl
  · split <;> rfl

/-- Whether the times of a row can be read does not depend on the session they are set in. -/
theorem sessionSetTimes_eq_none {row : SqlRow} (s s' : Session) :
    sessionSetTimes row s = none ↔ sessionSetTimes row s' = none := by
  unfold sessionSetTimes sessionSetExpires
  cases row.expiresAt with
  | none => cases parseRfc3339Utc row.createdAt <;> simp
  | some text => cases parseRfc3339Utc text <;> cases parseRfc3339Utc row.createdAt <;> simp

section

variable {φ : Event Sys → Prop}

theorem reports_sqlBind (n : Nat) : Reports φ allocOk (fun b => b = true) (sqlBind n) := by
  induction n with
  | zero => exact reports_pure rfl
  | succ n ih =>
    have hbound : Reports φ allocOk (fun b => b = true) libraryAlloc :=
      reports_perform (S := Sys) (o := .library) fun x _ => by simp [allocOk]
    refine hbound.bind (fun b hb => ?_) fun b hb => ?_
    · subst hb
      exact ih
    · rw [eq_false_of_ne_true hb]
      exact Ensures.pure Bool.false_ne_true

theorem reports_sqlPrepared (n : Nat) : Reports φ allocOk (fun b => b = true) (sqlPrepared n) :=
  reports_sqlBind (n + 1)

/-- A row that can be read is not read exactly when an allocation fails. -/
theorem reports_sessionFromStmt {row : SqlRow} {s : Session} (h : row.session = some s) :
    Reports φ allocOk (fun out => out ≠ none) (sessionFromStmt row) := by
  obtain ⟨base, hbase, htimes⟩ := Option.bind_eq_some_iff.mp h
  have hcode : (sessionSetStateStr sessionInit row.state).1 = 0 := by
    unfold SqlRow.columns at hbase
    simp only [Option.ite_none_left_eq_some, not_not] at hbase
    exact (sessionSetStateStr_code _ _ _).trans hbase.1
  have hcolumns : Reports φ allocOk (fun out => out ≠ none) (sessionSetColumns row) := by
    unfold sessionSetColumns
    refine reports_guard reports_setField (fun _ h => h rfl) fun r₁ _ => ?_
    refine reports_guard reports_setField (fun _ h => h rfl) fun r₂ _ => ?_
    have hstate : (sessionSetStateStr r₂.2 row.state).1 = 0 := (sessionSetStateStr_code _ _ _).trans hcode
    simp only [hstate, ne_eq, not_true_eq_false, if_false]
    refine reports_guard reports_setField (fun _ h => h rfl) fun r₃ _ => ?_
    refine reports_guard reports_setField (fun _ h => h rfl) fun r₄ _ => ?_
    refine reports_guard reports_setField (fun _ h => h rfl) fun r₅ _ => ?_
    exact reports_pure nofun
  unfold sessionFromStmt
  refine hcolumns.bind (fun out hout => ?_) fun out hout => ?_
  · obtain ⟨columns, rfl⟩ := Option.ne_none_iff_exists'.mp hout
    refine reports_pure ?_
    rw [Ne, sessionSetTimes_eq_none columns base, htimes]
    nofun
  · rw [not_not.mp hout]
    exact Ensures.pure fun h => h rfl

end

/-- A lookup up to the session of its row. -/
def sqliteRead (id : CStr) : SqlProg (Option Session) := do
  if !(← (sqlPrepared 1).lift) then return none
  let some row ← sqlStep (.selectById id) | return none
  if !(← (malloc sizeofSession).lift) then return none
  (sessionFromStmt row).lift

theorem sqliteGet_eq (id : CStr) : sqliteGet id = (do
    let some session ← sqliteRead id | return none
    let now ← time.lift
    if sqlExpired session now then
      let _ ← sqliteDelete id
      return none
    return some session) := by
  unfold sqliteGet sqliteRead
  rw [bind_assoc]
  congr 1
  funext b
  cases b with
  | false => rfl
  | true =>
    simp only [Bool.not_true, Bool.false_eq_true, if_false]
    rw [bind_assoc]
    congr 1
    funext found
    cases found with
    | none => rfl
    | some row =>
      simp only
      rw [bind_assoc]
      congr 1
      funext b
      cases b <;> rfl

/-- The answers of a lookup with which nothing goes wrong. -/
def lookupOk (db : SqlDb) : (o : (Sys.sum SqlSig).Op) → Option ((Sys.sum SqlSig).Ans o)
  | .inl o => allocOk o
  | .inr (.selectById id) => some (db.find id)
  | .inr _ => none

/-- A lookup's statement fails, or has the row. -/
def QueriedIn (db : SqlDb) (e : Event (Sys.sum SqlSig)) : Prop :=
  ∀ id x, e = ⟨.inr (.selectById id), x⟩ → x = none ∨ x = db.find id

/-- No statement but lookups. -/
def IsQuery : (Sys.sum SqlSig).Op → Prop
  | .inl _ => True
  | .inr (.selectById _) => True
  | .inr _ => False

theorem sqlConnection_events {o : SqlOp} {db db' : SqlDb} {tr : List (Event Sys)} {x : o.Ans}
    (h : sqlConnection o db tr x db') : tr = [] := by
  rcases h with h | h <;> exact h.1

theorem exec_queries {α : Type} {p : SqlProg α} (hp : AllOps IsQuery p) {db db' : SqlDb} {tr a}
    (h : Exec sqlConnection p db tr a db') : db' = db ∧ ∀ e ∈ tr, QueriedIn db e := by
  induction h with
  | ret => exact ⟨rfl, nofun⟩
  | env _ ih =>
    obtain ⟨hdb, hall⟩ := ih (hp.2 _)
    refine ⟨hdb, List.forall_mem_cons.mpr ⟨fun id x he => ?_, hall⟩⟩
    cases he
  | @call o k db tr₁ x db₁ tr a db' hcall _ ih =>
    cases o with
    | selectById id =>
      have hserved : tr₁ = [] ∧ db₁ = db ∧ (x = none ∨ x = db.find id) := by
        rcases hcall with ⟨htr, hdb, hx⟩ | ⟨htr, hdb, hx⟩
        · exact ⟨htr, hdb, .inr ((SqlOp.reorders_iff fun _ => SqlOp.noConfusion).mp hx)⟩
        · cases hx
          exact ⟨htr, hdb, .inl rfl⟩
      obtain ⟨rfl, rfl, hx⟩ := hserved
      obtain ⟨hdb, hall⟩ := ih (hp.2 x)
      refine ⟨hdb, List.forall_mem_cons.mpr ⟨fun id' x' he => ?_, hall⟩⟩
      cases he
      exact hx
    | _ => exact hp.1.elim

section

variable {id : CStr} {db db' : SqlDb} {row : SqlRow} {tr : List (Event (Sys.sum SqlSig))} {found : Option Session}

theorem allOps_sqliteRead (id : CStr) : AllOps IsQuery (sqliteRead id) := by
  have henv : ∀ o, IsQuery (.inl o) := fun _ => trivial
  refine AllOps.bind (allOps_lift henv _) fun b => ?_
  split
  · exact allOps_pure _
  refine AllOps.bind (allOps_perform (S := Sys.sum SqlSig) trivial) fun found => ?_
  cases found with
  | none => exact allOps_pure _
  | some row =>
    refine AllOps.bind (allOps_lift henv _) fun b => ?_
    split
    · exact allOps_pure _
    · exact allOps_lift henv _

/-- What is found is the session of the row. -/
theorem sqliteRead_some (hrow : db.find id = some row) (h : Exec sqlConnection (sqliteRead id) db tr found db')
    {s : Session}
    (hs : found = some s) : row.session = some s := by
  have hqueried := (exec_queries (allOps_sqliteRead id) h).2
  have ht := h.trace_eq fun _ _ _ _ _ hB => sqlConnection_events hB
  subst hs
  obtain ⟨tr₁, b, tr₂, rfl, -, h₁⟩ := trace_bind.mp ht
  cases b with
  | false => cases (trace_pure.mp h₁).2
  | true =>
    obtain ⟨tr₃, x, tr₄, rfl, hselect, h₂⟩ := trace_bind.mp h₁
    obtain rfl := trace_call.mp hselect
    cases x with
    | none => cases (trace_pure.mp h₂).2
    | some row' =>
      have hx := hqueried _ (by simp) id (some row') rfl
      rw [hrow] at hx
      obtain rfl : row' = row := by simpa using hx
      obtain ⟨tr₅, b, tr₆, rfl, -, h₃⟩ := trace_bind.mp h₂
      cases b with
      | false => cases (trace_pure.mp h₃).2
      | true =>
        obtain ⟨tr₇, rfl, hstmt⟩ := trace_lift.mp h₃
        exact ensures_sessionFromStmt row' tr₇ (some s) hstmt s rfl

theorem sqliteRead_found (hrow : db.find id = some row) {s : Session} (hs : row.session = some s)
    (h : Exec sqlConnection (sqliteRead id) db tr found db') : found ≠ none ↔ Obeys (lookupOk db) tr := by
  have hreports : Reports (QueriedIn db) (lookupOk db) (fun out => out ≠ none) (sqliteRead id) := by
    refine (Reports.lift (reports_sqlPrepared 1)).bind (fun b hb => ?_) fun b hb => ?_
    · subst hb
      have hselect : Reports (QueriedIn db) (lookupOk db) (fun x => x = some row) (sqlStep (.selectById id)) :=
        reports_call (T := SqlSig) (o := .selectById id) fun x _ => by simp [lookupOk, hrow]
      refine hselect.bind_with (P := fun x => x = none ∨ x = some row) (fun tr x hx hφ => ?_) (fun x _ hx => ?_)
        fun x hP hx => ?_
      · obtain rfl := trace_call.mp hx
        exact hrow ▸ hφ _ List.mem_cons_self id x rfl
      · subst hx
        refine (Reports.lift (reports_malloc sizeofSession)).bind (fun b hb => ?_) fun b hb => ?_
        · subst hb
          exact Reports.lift (reports_sessionFromStmt hs)
        · rw [eq_false_of_ne_true hb]
          exact Ensures.pure fun h => h rfl
      · obtain rfl := hP.resolve_right hx
        exact Ensures.pure fun h => h rfl
    · rw [eq_false_of_ne_true hb]
      exact Ensures.pure fun h => h rfl
  exact hreports tr found (h.trace_eq fun _ _ _ _ _ hB => sqlConnection_events hB)
    (exec_queries (allOps_sqliteRead id) h).2

end

section

variable {id : CStr} {db db' : SqlDb} {row : SqlRow} {tr : List (Event (Sys.sum SqlSig))} {found : Option Session}
  {now : Int}

theorem onlyAllocates_sqlBind (n : Nat) : OnlyAllocates (sqlBind n) := by
  induction n with
  | zero => exact onlyAllocates_pure _
  | succ n ih =>
    refine onlyAllocates_libraryAlloc.bind fun b => ?_
    split
    · exact onlyAllocates_pure _
    · exact ih

theorem onlyAllocates_sessionFromStmt (row : SqlRow) : OnlyAllocates (sessionFromStmt row) := by
  refine OnlyAllocates.bind ?_ fun out => by cases out <;> exact onlyAllocates_pure _
  refine onlyAllocates_setField.bind fun r₁ => onlyAllocates_guard ?_
  refine onlyAllocates_setField.bind fun r₂ => onlyAllocates_guard (onlyAllocates_guard ?_)
  refine onlyAllocates_setField.bind fun r₃ => onlyAllocates_guard ?_
  refine onlyAllocates_setField.bind fun r₄ => onlyAllocates_guard ?_
  refine onlyAllocates_setField.bind fun r₅ => onlyAllocates_guard ?_
  exact onlyAllocates_pure _

theorem unclocked_sqliteRead (id : CStr) : AllOps Unclocked (sqliteRead id) := by
  refine AllOps.bind (onlyAllocates_sqlBind 2).unclocked fun b => ?_
  split
  · exact allOps_pure _
  refine (unclocked_call _).bind fun found => ?_
  cases found with
  | none => exact allOps_pure _
  | some row =>
    refine (onlyAllocates_malloc _).unclocked.bind fun b => ?_
    split
    · exact allOps_pure _
    · exact (onlyAllocates_sessionFromStmt row).unclocked

/-- The lookup of a row that is not past its expiry fails exactly when the row
cannot be read, an allocation fails or the statement does. -/
theorem sqliteGet_found (hrow : db.find id = some row) (hlive : row.LiveAt now)
    (h : Exec sqlConnection (sqliteGet id) db tr found db') (hfirst : FirstReads now (envEvents tr)) :
    found ≠ none ↔ row.session ≠ none ∧ Obeys (lookupOk db) tr := by
  rw [sqliteGet_eq] at h
  obtain ⟨tr₁, read, db₁, tr₂, rfl, hread, hrest⟩ := exec_bind.mp h
  cases read with
  | none =>
    obtain ⟨rfl, rfl, -⟩ := exec_pure.mp hrest
    rw [List.append_nil]
    refine iff_of_false (fun h => h rfl) fun ⟨hs, hobeys⟩ => ?_
    obtain ⟨s, hs⟩ := Option.ne_none_iff_exists'.mp hs
    exact (sqliteRead_found hrow hs hread).mpr hobeys rfl
  | some s =>
    have hs := sqliteRead_some hrow hread rfl
    have hobeys := (sqliteRead_found hrow hs hread).mp nofun
    have hsilent := unclocked_trace (unclocked_sqliteRead id)
      (hread.trace_eq fun _ _ _ _ _ hB => sqlConnection_events hB)
    rw [envEvents_append, firstReads_append hsilent] at hfirst
    obtain ⟨tr₃, x, db₂, tr₄, rfl, htime, hjudge⟩ := exec_bind.mp hrest
    obtain ⟨rfl, tr₅, rfl, hx⟩ := exec_lift.mp htime
    obtain rfl := trace_time.mp hx
    have hnow : x = now := firstReads_time.mp hfirst
    have hexp : sqlExpired s x = false := by
      rw [hnow]
      exact (SqlRow.liveAt_iff hs).mp hlive
    rw [hexp] at hjudge
    obtain ⟨rfl, rfl, -⟩ := exec_pure.mp hjudge
    refine iff_of_true nofun ⟨by rw [hs]; nofun, obeys_append.mpr ⟨hobeys, ?_⟩⟩
    rw [List.append_nil, List.map_singleton, obeys_singleton]
    exact nofun

end

/-- **Over SQLite** a request is truthful about a session exactly when its row can be
read and neither an allocation nor the statement of its lookup fails. -/
theorem sqlite_truthful_iff (L : Extern) (cfg : ManagerConfig) (resp : ManagerResponse) {id : CStr}
    {call : ResponseCall}
    (hon : call.On id) {db db' : SqlDb} {tr : List (Event (Sys.sum SqlSig))} {r : Int × ManagerResponse}
    (h : Exec sqlConnection ((call.program L cfg resp).over sqliteStore) db tr r db') :
    ∃ tr₁ found db₁ tr₂, tr = tr₁ ++ tr₂ ∧ Exec sqlConnection (sqliteStore (.get (some id))) db tr₁ found db₁ ∧
      ∀ now, FirstReads now (envEvents tr₁) →
        (Truthful (db.HoldsLive now id) found r ↔
          (db.HoldsLive now id → (db.find id).bind SqlRow.session ≠ none ∧ Obeys (lookupOk db) tr₁)) := by
  obtain ⟨tr₁, found, db₁, tr₂, heq, hget, htruthful⟩ := lookup_truthful L cfg resp hon h
  refine ⟨tr₁, found, db₁, tr₂, heq, hget, fun now hfirst => ?_⟩
  rw [htruthful]
  refine forall_congr' fun hheld => ?_
  obtain ⟨row, hrow, hlive⟩ := hheld
  rw [hrow, Option.bind_some]
  exact sqliteGet_found hrow hlive hget hfirst

/-! ## The Redis store -/

/-- At this key is a session that has not expired. -/
def HoldsLive (L : Extern) (ks : Keyspace) (now : Int) (key : CStr) : Prop :=
  ∃ s, readSession L ks key = some s ∧ s.expiredAt now = false

/-- The answers of a lookup's first operations with which nothing goes wrong. -/
def redisLookupOk (ks : Keyspace) : (o : (Sys.sum RedisSig).Op) → Option ((Sys.sum RedisSig).Ans o)
  | .inl o => allocOk o
  | .inr (.get key) => some (some (ks.get key))
  | .inr _ => none

section

variable {L : Extern} {keyPrefix json : CStr} {ks ks' : Keyspace} {found : Option Session} {s : Session} {now : Int}

theorem onlyAllocates_setIfString {set : Session → Option CStr → Prog Sys (Int × Session)}
    (hset : ∀ s value, OnlyAllocates (set s value)) (s : Session) (item : Option Json) :
    OnlyAllocates (setIfString set s item) := by
  unfold setIfString
  cases Json.asString item with
  | none => exact onlyAllocates_pure _
  | some value => exact (hset s _).bind fun _ => onlyAllocates_pure _

theorem onlyAllocates_setPublicKeyItem (s : Session) (item : Option Json) :
    OnlyAllocates (setPublicKeyItem L s item) := by
  unfold setPublicKeyItem
  split
  · refine OnlyAllocates.bind ?_ fun jwk => onlyAllocates_setField.bind fun _ => onlyAllocates_pure _
    refine onlyAllocates_libraryAlloc.bind fun b => ?_
    split <;> exact onlyAllocates_pure _
  · exact onlyAllocates_setIfString (fun _ _ => onlyAllocates_setField) s item

theorem onlyAllocates_sessionFromJson (s₀ : Session) : OnlyAllocates (sessionFromJson L json s₀) := by
  have hset {set : Session → Option CStr → Prog Sys (Int × Session)} (hset : ∀ s value, OnlyAllocates (set s value)) :=
    onlyAllocates_setIfString hset
  refine OnlyAllocates.bind ?_ fun obj => ?_
  · refine onlyAllocates_libraryAlloc.bind fun b => ?_
    split <;> exact onlyAllocates_pure _
  cases obj with
  | none => exact onlyAllocates_pure _
  | some obj =>
    refine (hset (fun _ _ => onlyAllocates_setField) _ _).bind fun s₁ => ?_
    refine (hset (fun _ _ => onlyAllocates_setField) _ _).bind fun s₂ => ?_
    refine (onlyAllocates_setPublicKeyItem _ _).bind fun s₃ => ?_
    refine (hset (fun _ _ => onlyAllocates_setField) _ _).bind fun s₄ => ?_
    refine (hset (fun _ _ => onlyAllocates_setField) _ _).bind fun s₅ => ?_
    exact onlyAllocates_pure _

/-- A text that parses is read unless the parser has no memory; a field that cannot be copied is left out. -/
theorem trace_sessionFromJson {obj : Json} (hparse : L.parse json = some obj) {s₀ : Session} {tr : List (Event Sys)}
    {r : Int × Session} (h : Trace (sessionFromJson L json s₀) tr r) :
    ∃ b rest, tr = ⟨.library, b⟩ :: rest ∧ (r.1 = 0 ↔ b = true) := by
  unfold sessionFromJson cJsonParse at h
  rw [bind_assoc] at h
  obtain ⟨tr₁, b, tr₂, rfl, hlibrary, hrest⟩ := trace_bind.mp h
  obtain rfl := trace_perform.mp hlibrary
  refine ⟨b, tr₂, rfl, ?_⟩
  cases b with
  | false =>
    obtain ⟨-, rfl⟩ := trace_pure.mp hrest
    exact iff_of_false nofun nofun
  | true =>
    simp only [if_true, pure_bind, hparse] at hrest
    have hzero : Ensures (do
        let session ← setIfString sessionSetId sessionInit (obj.getObjectItem "id")
        let session ← setIfString sessionSetUserId session (obj.getObjectItem "user_id")
        let session := setStateIfString session (obj.getObjectItem "state")
        let session ← setPublicKeyItem L session (obj.getObjectItem "public_key")
        let session ← setIfString sessionSetAlgorithm session (obj.getObjectItem "algorithm")
        let session ← setIfString sessionSetChallenge session (obj.getObjectItem "challenge")
        let session := setTimeIfNumber sessionSetExpiresAt session (obj.getObjectItem "expires_at")
        let session := setTimeIfNumber sessionSetCreatedAt session (obj.getObjectItem "created_at")
        return (0, session)) fun r : Int × Session => r.1 = 0 :=
      Ensures.bind_any fun _ => Ensures.bind_any fun _ => Ensures.bind_any fun _ => Ensures.bind_any fun _ =>
        Ensures.bind_any fun _ => Ensures.pure rfl
    exact iff_of_true (hzero tr₂ r hrest) rfl

theorem obeys_alloc {o : Sys.Op} {x y : Sys.Ans o} (ho : allocOk o = some x) {tr : List (Event (Sys.sum RedisSig))} :
    Obeys (redisLookupOk ks) (Event.inl ⟨o, y⟩ :: tr) ↔ y = x ∧ Obeys (redisLookupOk ks) tr := by
  rw [obeys_cons]
  refine and_congr_left fun _ => ⟨fun h => h x ho, fun hyx z hz => ?_⟩
  exact hyx.trans (Option.some.inj (ho.symm.trans hz))

/-- The text of a session that is not past its expiry is read unless the session or the parser has no memory. -/
theorem redisGetText_found {delete : RedisProg Int} (hs : storedSession L json = some s)
    (hlive : s.expiredAt now = false)
    {tr : List (Event (Sys.sum RedisSig))} (h : Exec redisTrouble (redisGetText L delete json) ks tr found ks')
    (hfirst : FirstReads now (envEvents tr)) (ks₀ : Keyspace) :
    found ≠ none ↔ Obeys (redisLookupOk ks₀) (tr.take 2) := by
  unfold redisGetText at h
  obtain ⟨tr₁, b, ks₁, tr₂, rfl, hmalloc, hrest⟩ := exec_bind.mp h
  obtain ⟨rfl, tr₃, rfl, hb⟩ := exec_lift.mp hmalloc
  obtain rfl := trace_perform.mp hb
  rw [List.map_singleton, List.singleton_append, List.take_succ_cons]
  refine Iff.trans ?_ (obeys_alloc rfl).symm
  cases b with
  | false =>
    obtain ⟨rfl, rfl, -⟩ := exec_pure.mp hrest
    exact iff_of_false (fun h => h rfl) fun h => nomatch h.1
  | true =>
    refine Iff.trans ?_ (and_iff_right rfl).symm
    obtain ⟨tr₄, r, ks₂, tr₅, rfl, hjson, hjudge⟩ := exec_bind.mp hrest
    obtain ⟨rfl, tr₆, rfl, hr⟩ := exec_lift.mp hjson
    obtain ⟨obj, hparse, -⟩ := Option.map_eq_some_iff.mp hs
    obtain ⟨b, rest, rfl, hcode⟩ := trace_sessionFromJson hparse hr
    rw [List.map_cons, List.cons_append, List.take_succ_cons, List.take_zero]
    refine Iff.trans ?_ (obeys_alloc rfl).symm
    rw [← hcode]
    simp only [obeys_nil, and_true]
    by_cases hrc : r.1 = 0
    · simp only [ne_eq, hrc, not_true_eq_false, if_false] at hjudge
      obtain ⟨tr₇, expired, ks₃, tr₈, rfl, hexpired, hfound⟩ := exec_bind.mp hjudge
      obtain ⟨rfl, tr₉, rfl, hjudged⟩ := exec_lift.mp hexpired
      have halloc := @onlyAllocates_sessionFromJson L json sessionInit
      have hresembles := (@returns_sessionFromJson now L json sessionInit).trace hr
        (fun e he x hx => nomatch (halloc.trace hr e he).symm.trans hx) hrc
      obtain ⟨d, hd, hresembles⟩ := hresembles
      obtain rfl : d = s := Option.some.inj (hd.symm.trans hs)
      have hlive' : r.2.expiredAt now = false := (hresembles.expiredAt now).trans hlive
      simp only [envEvents_append, envEvents_map_inl] at hfirst
      rw [firstReads_append rfl, firstReads_append (halloc.readings hr)] at hfirst
      rw [(isExpired_first hjudged hfirst).1, hlive'] at hfound
      obtain ⟨-, rfl, -⟩ := exec_pure.mp hfound
      exact iff_of_true nofun hrc
    · simp only [ne_eq, hrc, not_false_eq_true, if_true] at hjudge
      obtain ⟨-, rfl, -⟩ := exec_pure.mp hjudge
      exact iff_of_false (fun h => h rfl) hrc

theorem redisTrouble_get {key : CStr} {tr : List (Event Sys)} {reply : Option RedisReply}
    (h : redisTrouble (.get key) ks tr reply ks') :
    tr = [] ∧ ks' = ks ∧ (reply = some (ks.get key) ∨ reply = none ∨ reply = some .error) := by
  rcases h with (⟨htr, hks, r, hr, hreply⟩ | ⟨htr, hreply, hks | hks⟩) | ⟨htr, hreply, hks⟩
  · rw [Keyspace.answer, RedisReply.reorders_iff (ks.get_ne_array key)] at hr
    exact ⟨htr, hks, .inl (hr ▸ hreply)⟩
  · exact ⟨htr, hks, .inr (.inl hreply)⟩
  · exact ⟨htr, hks, .inr (.inl hreply)⟩
  · exact ⟨htr, hks, .inr (.inr hreply)⟩

/-- The lookup of a session that is not past its expiry fails exactly when one of its
first four operations does: the key, the command, the session and the parse. -/
theorem redisGet_finds {frames : Nat} {id : CStr} (hread : readSession L ks (sessionKey keyPrefix id) = some s)
    (hlive : s.expiredAt now = false) {tr : List (Event (Sys.sum RedisSig))}
    (h : Exec redisTrouble (redisGet L keyPrefix frames id) ks tr found ks') (hfirst : FirstReads now (envEvents tr)) :
    found ≠ none ↔ Obeys (redisLookupOk ks) (tr.take 4) := by
  cases frames with
  | zero =>
    obtain ⟨-, tr', -, ht⟩ := exec_lift.mp h
    obtain ⟨x, -⟩ := trace_op.mp ht
    cases x
  | succ frames =>
    rw [redisGet, redisSessionKey, redisKey, lift_bind, bind_assoc] at h
    obtain ⟨tr₁, b, ks₁, tr₂, rfl, hmalloc, hrest⟩ := exec_bind.mp h
    obtain ⟨rfl, tr₃, rfl, hb⟩ := exec_lift.mp hmalloc
    obtain rfl := trace_perform.mp hb
    rw [List.map_singleton, List.singleton_append, List.take_succ_cons]
    refine Iff.trans ?_ (obeys_alloc rfl).symm
    cases b with
    | false =>
      obtain ⟨rfl, rfl, -⟩ := exec_pure.mp hrest
      exact iff_of_false (fun h => h rfl) fun h => by cases h.1
    | true =>
      refine Iff.trans ?_ (and_iff_right rfl).symm
      simp only [if_true, lift_pure, pure_bind] at hrest
      obtain ⟨tr₄, reply, ks₂, tr₅, rfl, hcommand, hreply⟩ := exec_bind.mp hrest
      obtain ⟨tr₆, rfl, hserved⟩ := exec_call.mp hcommand
      obtain ⟨rfl, rfl, hreplied⟩ := redisTrouble_get hserved
      obtain ⟨json, hget, hs⟩ :
        ∃ json, ks₂.get (sessionKey keyPrefix id) = .string json ∧ storedSession L json = some s := by
        unfold readSession at hread
        split at hread
        · exact ⟨_, by assumption, hread⟩
        · cases hread
      rw [List.map_nil, List.nil_append, List.singleton_append, List.take_succ_cons, obeys_cons]
      by_cases hok : reply = some (ks₂.get (sessionKey keyPrefix id))
      · refine Iff.trans ?_ (and_iff_right fun x hx => ?_).symm
        · rw [hok, hget] at hreply
          exact redisGetText_found hs hlive hreply hfirst ks₂
        · exact hok.trans (Option.some.inj hx)
      · have hnone :
          redisGetReply L (redisDeleteWith (redisGet L keyPrefix frames) keyPrefix id) reply = pure none := by
          rcases hreplied.resolve_left hok with rfl | rfl <;> rfl
        rw [hnone] at hreply
        obtain ⟨-, rfl, -⟩ := exec_pure.mp hreply
        exact iff_of_false (fun h => h rfl) fun h => hok (h.1 _ rfl)

end

/-- **Over Redis** a request is truthful about a session exactly when neither the key, the
command, the session's memory nor the parse of its lookup fails. -/
theorem redis_truthful_iff (L : Extern) (cfg : ManagerConfig) (resp : ManagerResponse) (keyPrefix : CStr) (frames : Nat)
    {id : CStr} {call : ResponseCall} (hon : call.On id) {ks ks' : Keyspace} {tr : List (Event (Sys.sum RedisSig))}
    {r : Int × ManagerResponse}
    (h : Exec redisTrouble ((call.program L cfg resp).over (redisStore L keyPrefix frames)) ks tr r ks') :
    ∃ tr₁ found ks₁ tr₂, tr = tr₁ ++ tr₂ ∧
      Exec redisTrouble (redisStore L keyPrefix frames (.get (some id))) ks tr₁ found ks₁ ∧
      ∀ now, FirstReads now (envEvents tr₁) →
        (Truthful (HoldsLive L ks now (sessionKey keyPrefix id)) found r ↔
          (HoldsLive L ks now (sessionKey keyPrefix id) → Obeys (redisLookupOk ks) (tr₁.take 4))) := by
  obtain ⟨tr₁, found, ks₁, tr₂, heq, hget, htruthful⟩ := lookup_truthful L cfg resp hon h
  refine ⟨tr₁, found, ks₁, tr₂, heq, hget, fun now hfirst => ?_⟩
  rw [htruthful]
  refine forall_congr' fun hheld => ?_
  obtain ⟨s, hread, hlive⟩ := hheld
  exact redisGet_finds hread hlive hget hfirst

/-! ## Every backend -/

/-- **When a failed lookup is told from a missing session**: over any backend, exactly
when the lookup finds the session that is held; over each one, when nothing in it fails. -/
theorem invalid_session_iff (L : Extern) (cfg : ManagerConfig) (resp : ManagerResponse) {id : CStr} {call : ResponseCall}
    (hon : call.On id) :
    (∀ (U : Sig) (σ : Type) (B : Comp Sys U σ) (I : (o : StoreOp) → Prog (Sys.sum U) (StoreOp.Ans o)) (st st' : σ) tr r,
      Exec B ((call.program L cfg resp).over I) st tr r st' →
      ∃ tr₁ found st₁ tr₂, tr = tr₁ ++ tr₂ ∧ Exec B (I (.get (some id))) st tr₁ found st₁ ∧
        ∀ held, Truthful held found r ↔ (held → found ≠ none)) ∧
    (∀ (ms ms' : MemoryStore) tr r, Exec memory.comp (call.program L cfg resp) ms tr r ms' →
      ∃ tr₁ found ms₁ tr₂, tr = tr₁.map Event.inl ++ answered (.get (some id)) found :: tr₂ ∧
        memory.comp (.get (some id)) ms tr₁ found ms₁ ∧ ∀ now, FirstReads now tr₁ →
          (Truthful (ms.HoldsLive now id) found r ↔ (ms.HoldsLive now id → Obeys allocOk tr₁))) ∧
    (∀ (db db' : SqlDb) tr r, Exec sqlConnection ((call.program L cfg resp).over sqliteStore) db tr r db' →
      ∃ tr₁ found db₁ tr₂, tr = tr₁ ++ tr₂ ∧ Exec sqlConnection (sqliteStore (.get (some id))) db tr₁ found db₁ ∧
        ∀ now, FirstReads now (envEvents tr₁) →
          (Truthful (db.HoldsLive now id) found r ↔
            (db.HoldsLive now id → (db.find id).bind SqlRow.session ≠ none ∧ Obeys (lookupOk db) tr₁))) ∧
    (∀ (keyPrefix : CStr) (frames : Nat) (ks ks' : Keyspace) tr r,
      Exec redisTrouble ((call.program L cfg resp).over (redisStore L keyPrefix frames)) ks tr r ks' →
      ∃ tr₁ found ks₁ tr₂, tr = tr₁ ++ tr₂ ∧
        Exec redisTrouble (redisStore L keyPrefix frames (.get (some id))) ks tr₁ found ks₁ ∧
        ∀ now, FirstReads now (envEvents tr₁) →
          (Truthful (HoldsLive L ks now (sessionKey keyPrefix id)) found r ↔
            (HoldsLive L ks now (sessionKey keyPrefix id) → Obeys (redisLookupOk ks) (tr₁.take 4)))) :=
  ⟨fun _ _ _ _ _ _ _ _ h => lookup_truthful L cfg resp hon h, fun _ _ _ _ h => memory_truthful_iff L cfg resp hon h,
    fun _ _ _ _ h => sqlite_truthful_iff L cfg resp hon h,
    fun keyPrefix frames _ _ _ _ h => redis_truthful_iff L cfg resp keyPrefix frames hon h⟩

theorem exists_firstReads (tr : List (Event Sys)) : ∃ now, FirstReads now tr := by
  unfold FirstReads
  cases (readings tr).head? with
  | none => exact ⟨0, nofun⟩
  | some x => exact ⟨x, fun y hy => (Option.some.inj hy).symm⟩

/-- A component that answers by itself. -/
def answering {T : Sig} {σ : Type} (server : (o : T.Op) → σ → T.Ans o × σ) : Impl Sys T σ :=
  fun o st => pure (server o st)

theorem exec_answering {T : Sig} {σ α : Type} {server : (o : T.Op) → σ → T.Ans o × σ} {B : Comp Sys T σ}
    (hB : ∀ o st, B o st [] (server o st).1 (server o st).2) {env n} {p : Prog (Sys.sum T) α} {st tr a st'}
    (h : play env (answering server) n p st = some (tr, a, st')) : Exec B p st tr a st' := by
  refine (exec_play h).component fun o st tr x st' hcall => ?_
  obtain ⟨rfl, heq⟩ := trace_pure.mp hcall
  obtain ⟨rfl, rfl⟩ := Prod.mk.inj heq
  exact hB o st

def endlessSession : Session := { sessionInit with id := some ("a" : CStr), userId := some ("u" : CStr) }

/-- A close of a session that is stored, without the memory to copy it. -/
theorem close_disowns_stored : ∃ (tr : List (Event (Sys.sum StoreSig))) (r : Int × ManagerResponse) (ms' : MemoryStore),
    Exec memory.comp (ResponseCall.program (Extern.knowing [] fun _ _ => true) (plainConfig 60) managerResponseInit
      (.close (some ("a" : CStr)))) ⟨[endlessSession], 8⟩ tr r ms' ∧ Disowns r ∧
    ∀ now, MemoryStore.HoldsLive ⟨[endlessSession], 8⟩ now "a" := by
  have hclose : play noMemory memory 0 (ResponseCall.program (Extern.knowing [] fun _ _ => true) (plainConfig 60)
      managerResponseInit (.close (some ("a" : CStr)))) ⟨[endlessSession], 8⟩ = some (_, _, _) := rfl
  exact ⟨_, _, _, exec_play hclose, ⟨rfl, rfl⟩, fun now => ⟨endlessSession, rfl, rfl⟩⟩

/-- A close with nothing failing, of a session in memory and of one that neither database has. -/
theorem invalid_session_close :
    (∃ (r : Int × ManagerResponse) (found : Option Session) (now : Int),
      Truthful (MemoryStore.HoldsLive ⟨[endlessSession], 8⟩ now "a") found r ∧ r.2.statusCode = 200) ∧
    (∃ (r : Int × ManagerResponse) (found : Option Session) (now : Int),
      Truthful (SqlDb.empty.HoldsLive now "a") found r ∧ r.2.statusCode = 401) ∧
    ∃ (r : Int × ManagerResponse) (found : Option Session) (now : Int),
      Truthful (HoldsLive (Extern.knowing [] fun _ _ => true) Keyspace.empty now (sessionKey "p" "a")) found r ∧
        r.2.statusCode = 401 := by
  have hiff := invalid_session_iff (Extern.knowing [] fun _ _ => true) (plainConfig 60) managerResponseInit
    (ResponseCall.On.close (rfl : nonEmpty (some ("a" : CStr)) = some ("a" : CStr)))
  refine ⟨?_, ?_, ?_⟩
  · have hclose : play (fun _ => runtimeEleven) memory 0 (ResponseCall.program (Extern.knowing [] fun _ _ => true)
        (plainConfig 60) managerResponseInit (.close (some ("a" : CStr)))) ⟨[endlessSession], 8⟩ = some (_, _, _) := rfl
    obtain ⟨tr₁, found, ms₁, tr₂, heq, -, h⟩ := hiff.2.1 _ _ _ _ (exec_play hclose)
    obtain ⟨now, hfirst⟩ := exists_firstReads tr₁
    refine ⟨_, found, now, (h now hfirst).mpr fun _ => ?_, rfl⟩
    have hobeys := obeys_play (f := allocOk) (fun _ o x hx => by cases o <;> first | exact hx | cases hx) hclose
    rw [heq] at hobeys
    exact obeys_map_inl.mp hobeys.of_append.1
  · have hclose : play (fun _ => runtimeEleven) (answering fun o db => SqlDb.answer db o) 0 ((ResponseCall.program
        (Extern.knowing [] fun _ _ => true) (plainConfig 60) managerResponseInit (.close (some ("a" : CStr)))).over
        sqliteStore) SqlDb.empty = some (_, _, _) := rfl
    have hexec : Exec sqlConnection _ _ _ _ _ := exec_answering (fun o db => .inl ⟨rfl, rfl, .refl _⟩) hclose
    obtain ⟨tr₁, found, db₁, tr₂, -, -, h⟩ := hiff.2.2.1 _ _ _ _ hexec
    obtain ⟨now, hfirst⟩ := exists_firstReads (envEvents tr₁)
    refine ⟨_, found, now, (h now hfirst).mpr ?_, rfl⟩
    rintro ⟨row, hrow, -⟩
    cases hrow
  · have hclose : play (fun _ => runtimeEleven) (answering steadyServer) 0 ((ResponseCall.program
        (Extern.knowing [] fun _ _ => true) (plainConfig 60) managerResponseInit (.close (some ("a" : CStr)))).over
        (redisStore (Extern.knowing [] fun _ _ => true) "p" 2)) Keyspace.empty = some (_, _, _) := rfl
    have hexec : Exec redisTrouble _ _ _ _ _ :=
      exec_answering (fun o ks => .inl (.inl ⟨rfl, rfl, _, .refl _, rfl⟩)) hclose
    obtain ⟨tr₁, found, ks₁, tr₂, -, -, h⟩ := hiff.2.2.2 _ _ _ _ _ _ hexec
    obtain ⟨now, hfirst⟩ := exists_firstReads (envEvents tr₁)
    refine ⟨_, found, now, (h now hfirst).mpr ?_, rfl⟩
    rintro ⟨s, hs, -⟩
    cases hs

end OpenDbsc
