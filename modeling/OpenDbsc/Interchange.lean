/-
The memory store and the SQLite store, side by side.

Both hold the sessions of one map (`SqlDb.Holds`, `MemoryStore.Represents`) and
answer as it does, except where they were written differently: create of an id
that is stored, update of `created_at`, and whose expired sessions a listing
drops. Where no call comes to one of these the two answer alike
(`stores_agree`).
-/
import OpenDbsc.MemoryFacts
import OpenDbsc.SqliteSpec

namespace OpenDbsc

open Effects Prog Records

/-! ## What the rows hold -/

/-- Named, of a user, with times between 1970 and the end of 9999. -/
structure Session.Regular (s : Session) : Prop where
  id : s.id ≠ none
  userId : s.userId ≠ none
  createdAt : 0 ≤ s.createdAt ∧ s.createdAt ≤ 253402300799
  expiresAt : 0 ≤ s.expiresAt ∧ s.expiresAt ≤ 253402300799

theorem Session.Regular.readable {s : Session} (h : s.Regular) : Readable s := by
  obtain ⟨-, -, hcreated, hexpires⟩ := h
  unfold Readable Parseable
  exact ⟨by omega, fun _ => by omega⟩

theorem Readable.printable {s : Session} (h : Readable s) : Printable s := by
  unfold Readable Parseable at h
  unfold Printable Formattable
  exact ⟨by omega, fun hhas => by have := h.2 hhas; omega⟩

/-- The rows can all be read, and their sessions are the map's. -/
def SqlDb.Holds (db : SqlDb) (m : SessionMap) : Prop :=
  ∃ ss : List Session, db.rows.map SqlRow.session = ss.map some ∧ Table.Lists ss m

theorem filter_sessions {rows : List SqlRow} {ss : List Session} {p : SqlRow → Bool} {q : Session → Bool}
    (h : rows.map SqlRow.session = ss.map some) (hpq : ∀ row ∈ rows, ∀ s ∈ ss, row.session = some s → p row = q s) :
    (rows.filter p).map SqlRow.session = (ss.filter q).map some := by
  induction rows generalizing ss with
  | nil =>
    obtain rfl := List.map_eq_nil_iff.mp h.symm
    rfl
  | cons row rest ih =>
    cases ss with
    | nil => cases h
    | cons s ss =>
      rw [List.map_cons, List.map_cons, List.cons.injEq] at h
      obtain ⟨hrow, hrest⟩ := h
      have hih := ih hrest fun row' hrow' s' hs' =>
        hpq row' (List.mem_cons_of_mem _ hrow') s' (List.mem_cons_of_mem _ hs')
      have hp := hpq row List.mem_cons_self s List.mem_cons_self hrow
      rw [List.filter_cons, List.filter_cons, hp]
      split
      · rw [List.map_cons, List.map_cons, hrow, hih]
      · exact hih

theorem map_sessions {rows : List SqlRow} {ss : List Session} {f : SqlRow → SqlRow} {g : Session → Session}
    (h : rows.map SqlRow.session = ss.map some)
    (hfg : ∀ row ∈ rows, ∀ s ∈ ss, row.session = some s → (f row).session = some (g s)) :
    (rows.map f).map SqlRow.session = (ss.map g).map some := by
  induction rows generalizing ss with
  | nil =>
    obtain rfl := List.map_eq_nil_iff.mp h.symm
    rfl
  | cons row rest ih =>
    cases ss with
    | nil => cases h
    | cons s ss =>
      rw [List.map_cons, List.map_cons, List.cons.injEq] at h
      obtain ⟨hrow, hrest⟩ := h
      have hih := ih hrest fun row' hrow' s' hs' =>
        hfg row' (List.mem_cons_of_mem _ hrow') s' (List.mem_cons_of_mem _ hs')
      rw [List.map_cons, List.map_cons, List.map_cons, List.map_cons, hih,
        hfg row List.mem_cons_self s List.mem_cons_self hrow]

namespace SqlDb.Holds

variable {db : SqlDb} {m : SessionMap}

theorem empty : SqlDb.empty.Holds Table.empty := ⟨[], rfl, rfl⟩

theorem session_of_row (h : db.Holds m) {row : SqlRow} (hrow : row ∈ db.rows) :
    ∃ s ∈ m.rows, row.session = some s ∧ s.id = some row.id := by
  obtain ⟨ss, hrows, hlists⟩ := h
  have hmem : row.session ∈ ss.map some := hrows ▸ List.mem_map_of_mem hrow
  obtain ⟨s, hs, hsession⟩ := List.mem_map.mp hmem
  exact ⟨s, hlists.mem_iff.mp hs, hsession.symm, (SqlRow.session_some hsession.symm).1⟩

theorem row_of_session (h : db.Holds m) {s : Session} (hs : s ∈ m.rows) :
    ∃ row ∈ db.rows, row.session = some s ∧ s.id = some row.id := by
  obtain ⟨ss, hrows, hlists⟩ := h
  have hmem : some s ∈ db.rows.map SqlRow.session := hrows ▸ List.mem_map_of_mem (hlists.mem_iff.mpr hs)
  obtain ⟨row, hrow, hsession⟩ := List.mem_map.mp hmem
  exact ⟨row, hrow, hsession, (SqlRow.session_some hsession).1⟩

/-- A row is found exactly if the map has its session. -/
theorem lookup (h : db.Holds m) (id : CStr) : (db.find id).bind SqlRow.session = m.lookup (some id) := by
  cases hfind : db.find id with
  | none =>
    refine Eq.symm (Table.lookup_eq_none.mpr fun s hs hid => ?_)
    obtain ⟨row, hrow, -, hkey⟩ := h.row_of_session hs
    exact SqlDb.find_eq_none.mp hfind row hrow (Option.some.inj (hkey.symm.trans hid))
  | some row =>
    obtain ⟨hrow, hid⟩ := SqlDb.mem_of_find hfind
    obtain ⟨s, hs, hsession, hkey⟩ := h.session_of_row hrow
    rw [Option.bind_some, hsession, ← hid, ← hkey]
    exact (Table.lookup_of_mem hs).symm

theorem find_none (h : db.Holds m) {id : CStr} : db.find id = none ↔ m.lookup (some id) = none := by
  rw [← h.lookup]
  cases hfind : db.find id with
  | none => simp
  | some row =>
    obtain ⟨s, -, hsession, -⟩ := h.session_of_row (SqlDb.mem_of_find hfind).1
    simp [hsession]

/-- Rows deleted, and the sessions they hold taken out. -/
theorem deleteWhere (h : db.Holds m) {p : SqlRow → Bool} {q : Session → Prop} [DecidablePred q]
    (hpq : ∀ row ∈ db.rows, ∀ s ∈ m.rows, row.session = some s → (p row = true ↔ ¬ q s)) :
    (db.deleteWhere p).Holds (m.filter q) := by
  obtain ⟨ss, hrows, hlists⟩ := h
  refine ⟨ss.filter q, filter_sessions hrows fun row hrow s hs hsession => ?_, hlists.filter q⟩
  have hiff := hpq row hrow s (hlists.mem_iff.mp hs) hsession
  rw [Bool.eq_iff_iff, Bool.not_eq_true', ← Bool.not_eq_true, hiff, not_not, decide_eq_true_iff]

theorem erase (h : db.Holds m) (id : CStr) : (db.deleteWhere fun row => row.id == id).Holds (m.erase (some id)) := by
  refine h.deleteWhere fun row _ s _ hsession => ?_
  rw [beq_iff_eq, not_not, (SqlRow.session_some hsession).1, Option.some.injEq]

theorem insert (h : db.Holds m) {s : Session} {row : SqlRow} (hsession : row.session = some s)
    (hnew : db.find row.id = none) : (db.insertRow row hnew).Holds (m.insert s) := by
  have hkey := (SqlRow.session_some hsession).1
  have hlookup : m.lookup s.id = none := by
    rw [hkey]
    exact h.find_none.mp hnew
  obtain ⟨ss, hrows, hlists⟩ := h
  refine ⟨ss ++ [s], ?_, hlists.concat hlookup⟩
  show (db.rows ++ [row]).map _ = _
  rw [List.map_append, List.map_append, hrows, List.map_singleton, hsession]
  rfl

theorem update (h : db.Holds m) {s old : Session} {id userId : CStr} {values : SqlValues} (hid : s.id = some id)
    (hold : m.lookup (some id) = some old)
    (hset : ∀ row, row.session = some old → (SqlDb.setRow userId values row).session = some s) :
    (db.updateRow id userId values).Holds (m.insert s) := by
  obtain ⟨hmem, hkey⟩ := Table.lookup_eq_some.mp hold
  obtain ⟨ss, hrows, hlists⟩ := h
  refine ⟨ss.map fun c => if c.id = s.id then s else c, map_sessions hrows fun row _ c hc hsession => ?_,
    hlists.replace (hlists.mem_iff.mpr hmem) (hkey.trans hid.symm)⟩
  have hrow := (SqlRow.session_some hsession).1
  by_cases heq : row.id = id
  · have hcid : c.id = some id := heq ▸ hrow
    have hcold : c = old := Table.unique (hlists.mem_iff.mp hc) hmem (hcid.trans hkey.symm)
    rw [if_pos heq, if_pos (hcid.trans hid.symm)]
    exact hset row (hcold ▸ hsession)
  · rw [if_neg heq, if_neg, hsession]
    intro hc
    exact heq (Option.some.inj (hrow.symm.trans (hc.trans hid)))

end SqlDb.Holds

/-! ## Where the two differ -/

/-- No argument is null, and a session is regular. -/
def StoreOp.Regular : StoreOp → Prop
  | .create s => s.Regular
  | .get id => id ≠ none
  | .update s => s.Regular
  | .delete id => id ≠ none
  | .getByUserId userId => userId ≠ none
  | .deleteByUserId userId => userId ≠ none

/-- The call does not come to where the stores differ: with these sessions
stored, create is of a new id, update keeps `created_at`, what is written has
an expiry exactly if it is not 0, and a listing comes upon no other user's
expired session. -/
def Undivided (stored : Multiset Session) (now : Int) : StoreOp → Prop
  | .create s => s.hasExpires = (s.expiresAt != 0) ∧ ∀ s' ∈ stored, s'.id ≠ s.id
  | .update s => ∀ s' ∈ stored, s'.id = s.id → s.hasExpires = (s.expiresAt != 0) ∧ s'.createdAt = s.createdAt
  | .getByUserId userId => ∀ s' ∈ stored, s'.expiredAt now = true → s'.userId = userId
  | _ => True

/-- The same answer, a listing in any order. -/
inductive StoreOp.Same : (o : StoreOp) → o.Ans → o.Ans → Prop
  | refl {o : StoreOp} (x : o.Ans) : Same o x x
  | sessions {userId : Option CStr} {xs ys : List Session} (h : xs.Perm ys) :
      Same (.getByUserId userId) (some xs) (some ys)

namespace SessionMap

variable {m m₁ m₂ : SessionMap}

/-- An answer depends on the clock only as to which of the sessions it looks at have expired. -/
theorem Answers.congr {now now' : Session → Int} {o : StoreOp} {x : o.Ans} (h : m.Answers now o x m₁)
    (hsame : ∀ s ∈ m.rows, Examines o s → s.expiredAt (now s) = s.expiredAt (now' s)) : m.Answers now' o x m₁ := by
  cases o with
  | get id =>
    unfold Answers at h ⊢
    cases hl : m.lookup id with
    | none => simpa only [hl] using h
    | some s =>
      simp only [hl] at h ⊢
      rwa [← hsame s (Table.lookup_mem hl) (Table.lookup_key hl)]
  | getByUserId userId =>
    cases userId with
    | none => exact h
    | some userId =>
      obtain ⟨rfl, hfound⟩ := h
      have heq : (m.filter fun s => s.expiredAt (now s) = false) = m.filter fun s => s.expiredAt (now' s) = false :=
        Table.ext (Multiset.filter_congr fun s hs => by rw [hsame s hs trivial])
      rw [heq] at hfound ⊢
      exact ⟨rfl, hfound⟩
  | deleteByUserId userId => cases userId <;> exact h
  | _ => exact h

/-- Two answers of the map are the same. -/
theorem Answers.same {now : Session → Int} {o : StoreOp} {x y : o.Ans} (hx : m.Answers now o x m₁)
    (hy : m.Answers now o y m₂) : m₁ = m₂ ∧ StoreOp.Same o x y := by
  have hsame : ∀ {code : o.Ans} {m' : SessionMap}, x = code ∧ m₁ = m' → y = code ∧ m₂ = m' →
      m₁ = m₂ ∧ StoreOp.Same o x y := by
    rintro code m' ⟨rfl, rfl⟩ ⟨rfl, rfl⟩
    exact ⟨rfl, .refl _⟩
  cases o with
  | create s =>
    unfold Answers at hx hy
    cases hid : s.id with
    | none =>
      simp only [hid] at hx hy
      exact hsame hx hy
    | some id =>
      simp only [hid] at hx hy
      exact hsame hx hy
  | get id =>
    unfold Answers at hx hy
    cases hl : m.lookup id with
    | none =>
      simp only [hl] at hx hy
      exact hsame hx hy
    | some s =>
      simp only [hl] at hx hy
      split at hx
      · rename_i hexp
        rw [if_pos hexp] at hy
        exact hsame hx hy
      · rename_i hexp
        rw [if_neg hexp] at hy
        exact hsame hx hy
  | update s =>
    unfold Answers at hx hy
    cases hl : m.lookup s.id with
    | none =>
      simp only [hl] at hx hy
      exact hsame hx hy
    | some old =>
      simp only [hl] at hx hy
      exact hsame hx hy
  | delete id => exact hsame hx hy
  | getByUserId userId =>
    cases userId with
    | none => exact hsame hx hy
    | some userId =>
      obtain ⟨rfl, xs, rfl, hxs⟩ := hx
      obtain ⟨rfl, ys, rfl, hys⟩ := hy
      exact ⟨rfl, .sessions (Multiset.coe_eq_coe.mp (hxs.trans hys.symm))⟩
  | deleteByUserId userId =>
    cases userId with
    | none => exact hsame hx hy
    | some userId => exact hsame hx hy

/-- An answer at one clock reading. -/
theorem answers_of_store {o : StoreOp} {tr : List (Event Sys)} {x : o.Ans} {now : Int} (h : store o m tr x m₁)
    (hnow : ∀ e ∈ tr, Still now e) : m.Answers (fun _ => now) o x m₁ := by
  obtain ⟨-, clock, hclock, hanswers⟩ := h
  refine hanswers.congr fun s hs hexamines => ?_
  unfold Session.expiredAt
  cases hhas : s.hasExpires with
  | false => rfl
  | true =>
    obtain ⟨e, he, hread⟩ := List.mem_filterMap.mp (hclock s hs hexamines hhas)
    rw [(hnow e he).1 _ hread]

end SessionMap

/-! ## One call on SQLite -/

namespace SqlDb.Holds

variable {db : SqlDb} {m : SessionMap} {now : Int}

/-- The call answers as the map does, and leaves its sessions. -/
abbrev Answers (db : SqlDb) (m : SessionMap) (now : Int) (o : StoreOp) : Prop :=
  Total (Still now) sqlServer (sqliteStore o) (fun x db' => ∃ m', m.Answers (fun _ => now) o x m' ∧ db'.Holds m') db

theorem answers_create (h : db.Holds m) {s : Session} (hs : s.Regular) (hexp : s.hasExpires = (s.expiresAt != 0))
    (hnew : ∀ s' ∈ m.rows, s'.id ≠ s.id) : Answers db m now (.create s) := by
  have hprintable := hs.readable.printable
  obtain ⟨row, hrow⟩ := Option.isSome_iff_exists.mp ((rowOf_isSome hs.id hs.userId).mpr hprintable)
  have hstores := stores_of_rowOf hrow
  have hfind : db.find row.id = none := by
    rw [h.find_none, ← hstores.id]
    exact Table.lookup_eq_none.mpr hnew
  have hsession : row.session = some s := by
    rcases hstores.session hexp with ⟨-, hsession⟩ | ⟨hnot, -⟩
    · exact hsession
    · exact absurd hs.readable hnot
  show Total _ _ (sqliteCreate s) _ _
  rw [total_sqliteCreate, hrow]
  show dite _ _ _
  rw [dif_pos hfind]
  refine ⟨m.insert s, ?_, h.insert hsession hfind⟩
  simp [SessionMap.Answers, hstores.id]

theorem answers_get (h : db.Holds m) (id : CStr) : Answers db m now (.get (some id)) := by
  show Total _ _ (sqliteGet id) _ _
  rw [total_sqliteGet, h.lookup]
  cases hl : m.lookup (some id) with
  | none => exact ⟨m, by simp [SessionMap.Answers, hl], h⟩
  | some s =>
    show ite _ _ _
    split
    · rename_i hexp
      exact ⟨m.erase (some id), by simp [SessionMap.Answers, hl, hexp], h.erase id⟩
    · rename_i hexp
      exact ⟨m, by simp [SessionMap.Answers, hl, hexp], h⟩

theorem answers_update (h : db.Holds m) {s : Session} (hs : s.Regular)
    (hkept : ∀ s' ∈ m.rows, s'.id = s.id → s.hasExpires = (s.expiresAt != 0) ∧ s'.createdAt = s.createdAt) :
    Answers db m now (.update s) := by
  obtain ⟨id, hid⟩ := Option.ne_none_iff_exists'.mp hs.id
  obtain ⟨userId, huser⟩ := Option.ne_none_iff_exists'.mp hs.userId
  obtain ⟨expiresAt, hexpires⟩ := Option.isSome_iff_exists.mp (expiresText_isSome.mpr hs.readable.printable.2)
  show Total _ _ (sqliteUpdate s) _ _
  rw [total_sqliteUpdate hid huser, hexpires]
  simp only
  cases hfind : db.find id with
  | none =>
    have hl : m.lookup s.id = none := hid ▸ h.find_none.mp hfind
    exact ⟨m, by simp [SessionMap.Answers, hl], h⟩
  | some row =>
    obtain ⟨hrow, rfl⟩ := SqlDb.mem_of_find hfind
    obtain ⟨old, hold, hsession, hkey⟩ := h.session_of_row hrow
    have hl : m.lookup (some row.id) = some old := hkey ▸ Table.lookup_of_mem hold
    obtain ⟨hexp, hcreated⟩ := hkept old hold (hkey.trans hid.symm)
    refine ⟨m.insert s, ?_, h.update hid hl fun row' hsession' => ?_⟩
    · rw [← hid] at hl
      simp [SessionMap.Answers, hl]
    · obtain ⟨hid', -, -, hcreated'⟩ := SqlRow.session_some hsession'
      have hvalues : StoresValues s (SqlDb.setRow userId (sqlValues s expiresAt) row') :=
        ⟨hid.trans (hkey.symm.trans hid'), huser, rfl, rfl, rfl, rfl, hexpires⟩
      exact hvalues.session hexp hs.readable.2 (hcreated ▸ hcreated')

theorem answers_delete (h : db.Holds m) (id : CStr) : Answers db m now (.delete (some id)) := by
  show Total _ _ (sqliteDelete id) _ _
  rw [total_sqliteDelete]
  exact ⟨m.erase (some id), ⟨rfl, rfl⟩, h.erase id⟩

theorem answers_deleteByUserId (h : db.Holds m) (userId : CStr) : Answers db m now (.deleteByUserId (some userId)) := by
  show Total _ _ (sqliteDeleteByUserId userId) _ _
  rw [total_sqliteDeleteByUserId]
  refine ⟨_, ⟨rfl, rfl⟩, h.deleteWhere fun row _ s _ hsession => ?_⟩
  rw [beq_iff_eq, not_not, (SqlRow.session_some hsession).2.1, Option.some.injEq]

theorem answers_getByUserId (h : db.Holds m) (userId : CStr)
    (hother : ∀ s ∈ m.rows, s.expiredAt now = true → s.userId = some userId) :
    Answers db m now (.getByUserId (some userId)) := by
  obtain ⟨ss, hrows, hlists⟩ := h
  have hfound : (db.rows.filter fun row => row.userId == userId).map SqlRow.session =
      (ss.filter fun s => s.userId == some userId).map some := by
    refine filter_sessions hrows fun row _ s _ hsession => ?_
    rw [(SqlRow.session_some hsession).2.1, Bool.eq_iff_iff, beq_iff_eq, beq_iff_eq, Option.some.injEq]
  refine total_sqliteGetByUserId hfound fun found hperm => ?_
  refine ⟨m.filter fun s => s.expiredAt now = false, ⟨rfl, _, rfl, ?_⟩, SqlDb.Holds.deleteWhere ⟨ss, hrows, hlists⟩ ?_⟩
  · have hl := hlists.filter fun s => s.expiredAt now = false
    unfold Table.Lists at hl
    rw [← hl, Multiset.filter_coe, Multiset.coe_eq_coe, List.filter_filter]
    refine (hperm.filter _).trans (List.Perm.of_eq ?_)
    rw [List.filter_filter]
    refine List.filter_congr fun s _ => ?_
    rw [Bool.eq_iff_iff]
    simp [and_comm]
  · intro row _ s hs hsession
    have hkey := (SqlRow.session_some hsession).1
    have hmem : ∀ s', s' ∈ found ↔ s' ∈ m.rows ∧ s'.userId = some userId := by
      intro s'
      rw [hperm.mem_iff, List.mem_filter, hlists.mem_iff, beq_iff_eq]
    rw [decide_eq_true_iff, List.mem_filterMap, Bool.not_eq_false]
    constructor
    · rintro ⟨s', hs', hid⟩
      obtain ⟨hs', hexp⟩ := List.mem_filter.mp hs'
      rwa [Table.unique hs ((hmem s').mp hs').1 (hkey.trans hid.symm)]
    · intro hexp
      exact ⟨s, List.mem_filter.mpr ⟨(hmem s).mpr ⟨hs, hother s hs hexp⟩, hexp⟩, hkey⟩

/-- **Where the stores do not differ, a call on SQLite is one on the map.** -/
theorem answers (h : db.Holds m) {o : StoreOp} (hregular : o.Regular) (hundivided : Undivided m.rows now o) :
    Answers db m now o := by
  cases o with
  | create s => exact h.answers_create hregular hundivided.1 hundivided.2
  | get id =>
    obtain ⟨id, rfl⟩ := Option.ne_none_iff_exists'.mp hregular
    exact h.answers_get id
  | update s => exact h.answers_update hregular hundivided
  | delete id =>
    obtain ⟨id, rfl⟩ := Option.ne_none_iff_exists'.mp hregular
    exact h.answers_delete id
  | getByUserId userId =>
    obtain ⟨userId, rfl⟩ := Option.ne_none_iff_exists'.mp hregular
    exact h.answers_getByUserId userId hundivided
  | deleteByUserId userId =>
    obtain ⟨userId, rfl⟩ := Option.ne_none_iff_exists'.mp hregular
    exact h.answers_deleteByUserId userId

end SqlDb.Holds

/-! ## The stores side by side -/

/-- A call made on both stores at clock value `now`, with their answers. -/
structure PairedCall where
  op : StoreOp
  now : Int
  memoryAns : op.Ans
  sqliteAns : op.Ans

/-- The call on each store, with nothing failing. -/
structure PairStep (st : MemoryStore × SqlDb) (c : PairedCall) (st' : MemoryStore × SqlDb) : Prop where
  memory : ∃ tr, memory.comp c.op st.1 tr c.memoryAns st'.1 ∧ ∀ e ∈ tr, Still c.now e
  sqlite : ∃ tr, Exec sqlServer (sqliteStore c.op) st.2 tr c.sqliteAns st'.2 ∧ Within (Still c.now) tr

/-- Both hold the sessions of one map. -/
def Abreast (st : MemoryStore × SqlDb) : Prop := ∃ m, st.1.Represents m ∧ st.2.Holds m

/-- The call is in the stores' common domain, and does not come to where they differ. -/
structure Common (t : Transition (MemoryStore × SqlDb) PairedCall) : Prop where
  regular : t.label.op.Regular
  undivided : Undivided t.pre.1.sessions t.label.now t.label.op

theorem PairStep.abreast {st st' : MemoryStore × SqlDb} {c : PairedCall} (hs : PairStep st c st') (h : Abreast st)
    (hcommon : Common ⟨st, c, st'⟩) : Abreast st' ∧ StoreOp.Same c.op c.memoryAns c.sqliteAns := by
  obtain ⟨m, hmemory, hsqlite⟩ := h
  obtain ⟨⟨tr, hcall, hstill⟩, ⟨tr', hexec, hwithin⟩⟩ := hs
  obtain ⟨m₁, hstore, hmemory'⟩ := hmemory.call hcall fun e he x hx => (hstill e he).2 x hx
  have hans₁ := SessionMap.answers_of_store (SessionMap.store_filter.mp hstore) hstill
  have hundivided : Undivided m.rows c.now c.op := by
    have h := hcommon.undivided
    rwa [show ((st.1.sessions : Multiset Session)) = m.rows from hmemory.lists] at h
  obtain ⟨m₂, hans₂, hsqlite'⟩ := (hsqlite.answers hcommon.regular hundivided).exec hexec hwithin
  obtain ⟨rfl, hsame⟩ := hans₁.same hans₂
  exact ⟨⟨m₁, hmemory', hsqlite'⟩, hsame⟩

/-- **The two stores answer alike** in every run from empty stores none of
whose calls comes to where they differ. -/
theorem stores_agree {h : List (Transition (MemoryStore × SqlDb) PairedCall)} {st : MemoryStore × SqlDb}
    (hrun : Run PairStep (MemoryStore.empty, SqlDb.empty) h st) (hcommon : ∀ t ∈ h, Common t) :
    ∀ t ∈ h, StoreOp.Same t.label.op t.label.memoryAns t.label.sqliteAns := by
  have habreast : Abreast st ∧ ∀ t ∈ h, StoreOp.Same t.label.op t.label.memoryAns t.label.sqliteAns := by
    induction hrun with
    | init => exact ⟨⟨Table.empty, .empty, .empty⟩, fun _ ht => (List.not_mem_nil ht).elim⟩
    | @step h st c st' _ hs ih =>
      obtain ⟨habreast, hsame⟩ := ih fun t ht => hcommon t (List.mem_append_left _ ht)
      obtain ⟨habreast', hlast⟩ := hs.abreast habreast (hcommon _ (List.mem_append_right _ List.mem_cons_self))
      refine ⟨habreast', fun t ht => ?_⟩
      rcases List.mem_append.mp ht with ht | ht
      · exact hsame t ht
      · rw [List.mem_singleton.mp ht]
        exact hlast
  exact habreast.2

theorem still_eleven {α : Type} {p : Prog Sys α} {n : Nat} {tr : List (Event Sys)} {a : α}
    (h : follow clockEleven n p = some (tr, a)) :
    ∀ e ∈ tr, Still 11 e := by
  intro e he
  have hobeys : Obeys (clockEleven 0) tr := obeys_follow (fun _ _ _ hx => hx) h
  obtain ⟨o, x⟩ := e
  refine ⟨fun r hr => ?_, fun y hy => hobeys _ he y (clockEleven_allocOk 0 o y hy)⟩
  cases o with
  | time =>
    rw [← Option.some.inj hr]
    exact hobeys _ he 11 rfl
  | _ => cases hr

theorem sqlServer_done (o : SqlOp) (db : SqlDb) : ∃ tr x db', sqlServer o db tr x db' ∧ ∀ e ∈ tr, Still 11 e :=
  ⟨[], _, _, ⟨rfl, rfl, .refl _⟩, fun _ he => (List.not_mem_nil he).elim⟩

def sessionToTwenty : Session := { sessionToTen with expiresAt := 20 }

theorem sessionToTwenty_regular : sessionToTwenty.Regular := ⟨by decide, by decide, by decide, by decide⟩

/-- The session is created on both stores, and found on both. -/
theorem stores_agree_create_get : ∃ h st, Run PairStep (MemoryStore.empty, SqlDb.empty) h st ∧
    (h.map fun t => t.label.op) = [.create sessionToTwenty, .get (some "a".toList)] ∧ st.1.sessions = [sessionToTwenty] ∧
    ∀ t ∈ h, StoreOp.Same t.label.op t.label.memoryAns t.label.sqliteAns := by
  have hcreate : follow clockEleven 0 (memory (.create sessionToTwenty) MemoryStore.empty) =
    some (_, 0, ⟨[sessionToTwenty], 8⟩) := rfl
  have hget : follow clockEleven 0 (memory (.get (some "a".toList)) ⟨[sessionToTwenty], 8⟩) =
    some (_, some sessionToTwenty, ⟨[sessionToTwenty], 8⟩) := rfl
  have hempty : SqlDb.empty.Holds Table.empty := .empty
  have hnone : ∀ s' ∈ (Table.empty : SessionMap).rows, s'.id ≠ sessionToTwenty.id :=
    fun _ hs => absurd hs (Multiset.notMem_zero _)
  obtain ⟨tr₁, x, db₁, hexec₁, hwithin₁, m₁, -, hholds⟩ :=
    (hempty.answers_create sessionToTwenty_regular rfl hnone).outcome sqlServer_done
  obtain ⟨tr₂, y, db₂, hexec₂, hwithin₂, -⟩ := (hholds.answers_get "a").outcome sqlServer_done
  have hstep₁ :
    PairStep (MemoryStore.empty, SqlDb.empty) ⟨.create sessionToTwenty, 11, 0, x⟩ (⟨[sessionToTwenty], 8⟩, db₁) :=
    ⟨⟨_, trace_follow hcreate, still_eleven hcreate⟩, ⟨tr₁, hexec₁, hwithin₁⟩⟩
  have hstep₂ : PairStep (⟨[sessionToTwenty], 8⟩, db₁) ⟨.get (some "a".toList), 11, some sessionToTwenty, y⟩
      (⟨[sessionToTwenty], 8⟩, db₂) :=
    ⟨⟨_, trace_follow hget, still_eleven hget⟩, ⟨tr₂, hexec₂, hwithin₂⟩⟩
  have hrun := (Run.init.step hstep₁).step hstep₂
  refine ⟨_, _, hrun, rfl, rfl, stores_agree hrun fun t ht => ?_⟩
  rcases List.mem_pair.mp ht with rfl | rfl
  · exact ⟨sessionToTwenty_regular, rfl, fun _ hs => absurd hs (Multiset.notMem_zero _)⟩
  · exact ⟨Option.some_ne_none _, trivial⟩

/-- Created again, the session is replaced in memory and refused by SQLite. -/
theorem stores_differ : ∃ h st, Run PairStep (MemoryStore.empty, SqlDb.empty) h st ∧
    (h.map fun t => t.label.op) = [.create sessionToTwenty, .create sessionToTwenty] ∧
    (∀ t ∈ h, t.label.op.Regular) ∧ ¬ ∀ t ∈ h, StoreOp.Same t.label.op t.label.memoryAns t.label.sqliteAns := by
  have hcreate : follow clockEleven 0 (memory (.create sessionToTwenty) MemoryStore.empty) =
    some (_, 0, ⟨[sessionToTwenty], 8⟩) := rfl
  have hagain : follow clockEleven 0 (memory (.create sessionToTwenty) ⟨[sessionToTwenty], 8⟩) =
    some (_, 0, ⟨[sessionToTwenty], 8⟩) := rfl
  have hprintable := sessionToTwenty_regular.readable.printable
  obtain ⟨row, hrow⟩ := Option.isSome_iff_exists.mp
    ((rowOf_isSome sessionToTwenty_regular.id sessionToTwenty_regular.userId).mpr hprintable)
  have hnew : SqlDb.empty.find row.id = none := rfl
  have hstored : ((SqlDb.empty.insertRow row hnew).find row.id) ≠ none := by
    rw [SqlDb.find_insertRow]
    exact Option.some_ne_none row
  have hfirst : Total (Still 11) sqlServer (sqliteCreate sessionToTwenty)
      (fun rc db' => rc = 0 ∧ db' = SqlDb.empty.insertRow row hnew) SqlDb.empty := by
    rw [total_sqliteCreate, hrow]
    show dite _ _ _
    rw [dif_pos hnew]
    exact ⟨rfl, rfl⟩
  have hsecond : Total (Still 11) sqlServer (sqliteCreate sessionToTwenty) (fun rc _ => rc = -1)
      (SqlDb.empty.insertRow row hnew) := by
    rw [total_sqliteCreate, hrow]
    show dite _ _ _
    rw [dif_neg hstored]
  obtain ⟨tr₁, _, _, hexec₁, hwithin₁, rfl, rfl⟩ := hfirst.outcome sqlServer_done
  obtain ⟨tr₂, _, db₂, hexec₂, hwithin₂, rfl⟩ := hsecond.outcome sqlServer_done
  have hstep₁ : PairStep (MemoryStore.empty, SqlDb.empty) ⟨.create sessionToTwenty, 11, 0, 0⟩
      (⟨[sessionToTwenty], 8⟩, SqlDb.empty.insertRow row hnew) :=
    ⟨⟨_, trace_follow hcreate, still_eleven hcreate⟩, ⟨tr₁, hexec₁, hwithin₁⟩⟩
  have hstep₂ : PairStep (⟨[sessionToTwenty], 8⟩, SqlDb.empty.insertRow row hnew) ⟨.create sessionToTwenty, 11, 0, -1⟩
      (⟨[sessionToTwenty], 8⟩, db₂) :=
    ⟨⟨_, trace_follow hagain, still_eleven hagain⟩, ⟨tr₂, hexec₂, hwithin₂⟩⟩
  refine ⟨_, _, (Run.init.step hstep₁).step hstep₂, rfl, fun t ht => ?_, fun hsame => ?_⟩
  · rcases List.mem_pair.mp ht with rfl | rfl
    · exact sessionToTwenty_regular
    · exact sessionToTwenty_regular
  · have hlast := hsame _ (List.mem_append_right _ List.mem_cons_self)
    cases hlast

end OpenDbsc
