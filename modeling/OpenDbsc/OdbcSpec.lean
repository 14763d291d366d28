/-
What a call of the ODBC store answers, and what it leaves in the table.

Each step is read off the connection: a statement is prepared, bound and
executed (`total_odbcRun`), a row is read column by column
(`total_sessionFromRow`), the rows of a query are fetched to the end
(`total_odbcCollect`). `SqlDb.Serves` is what a call comes to where nothing
fails, `SqlDb.Suffers` where something does; a call comes to one of the two
and always ends (`total_odbcStore`).
-/
import Mathlib.Data.List.TakeWhile
import OpenDbsc.Effects.Faults
import OpenDbsc.Effects.Needs
import OpenDbsc.OdbcServer
import OpenDbsc.SqliteListing
import OpenDbsc.TableStore

namespace OpenDbsc

open Effects Prog

/-! ## The runtime -/

section

variable {α σ : Type} {B : Comp Sys OdbcSig σ} {st : σ} {faults : Bool} {now : Int}

/-- What only allocates has its result, or what it may come to besides. -/
theorem total_tried {p : Prog Sys α} {a : α} (hp : p.assuming allocOk = pure a) (halloc : OnlyAllocates p)
    {R : α → Prop} (hR : Ensures p R) {Q : α → σ → Prop} (hok : Q a st) (hfail : faults = true → ∀ x, R x → Q x st) :
    Total (Unless faults (Still now)) B p.lift Q st := by
  refine total_unless_lift ?_ fun h => (halloc.answerable.returns_of_ensures hR).mono fun x hx => hfail h x hx
  rw [← returns_assuming fun _ _ _ h => still_alloc h, hp, returns_pure]
  exact hok

theorem total_malloc_tried {n : Nat} {Q : Bool → σ → Prop} (hok : Q true st) (hfail : faults = true → Q false st) :
    Total (Unless faults (Still now)) B (malloc n).lift Q st := by
  refine total_tried (assuming_malloc n) (onlyAllocates_malloc n) (R := fun _ => True) (fun _ _ _ => trivial) hok ?_
  intro h b _
  cases b with
  | true => exact hok
  | false => exact hfail h

theorem total_strdup_tried {text : CStr} {Q : Option CStr → σ → Prop} (hok : Q (some text) st)
    (hfail : faults = true → Q none st) : Total (Unless faults (Still now)) B (strdup text).lift Q st := by
  have htries : Tries (strdup text) text := tries_perform (S := Sys) (SysOp.malloc _) id text
  refine total_tried (assuming_strdup text) (onlyAllocates_strdup text) htries hok fun h out hout => ?_
  rcases hout with rfl | rfl
  · exact hok
  · exact hfail h

/-- The clock stands at `now`, or anywhere. -/
theorem total_time_unless {Q : Int → σ → Prop} (h : ∀ r, (faults = false → r = now) → Q r st) :
    Total (Unless faults (Still now)) B time.lift Q st := by
  have hok : Returns (Still now) time fun r => Q r st :=
    ⟨⟨now, still_time.mpr rfl⟩, fun r hr => h r fun _ => still_time.mp hr⟩
  refine total_unless_lift hok fun hf => ?_
  exact ⟨⟨now, trivial⟩, fun r _ => h r fun hno => absurd (hno.symm.trans hf) Bool.false_ne_true⟩

end

/-! ## One statement -/

theorem OdbcStatement.template_injective {g g' : OdbcStatement} {table : CStr}
    (h : g.template table = g'.template table) : g = g' := by
  have htail : ∀ {a b : CStr} {head : CStr}, head ++ table ++ a = head ++ table ++ b → a = b :=
    fun h => List.append_cancel_left h
  cases g <;> cases g' <;> first
    | rfl
    | exact absurd (List.cons.inj h).1 (by decide)
    | exact absurd (htail h) (by decide)

theorem odbcServer_silent {table : CStr} {faults : Bool} {o : OdbcOp} {conn conn' : OdbcConn} {tr : List (Event Sys)}
    {x : o.Ans} (h : odbcServer table faults o conn tr x conn') : tr = [] := by
  cases o <;> exact h.1

section

variable {table : CStr} {faults : Bool} {φ : Event Sys → Prop} {conn : OdbcConn}

theorem total_odbcCall {o : OdbcOp} {Q : o.Ans → OdbcConn → Prop}
    (h : ∀ x conn', odbcServer table faults o conn [] x conn' → Q x conn') :
    Total φ (odbcServer table faults) (odbcCall o) Q conn := by
  intro tr x conn' hserve _
  obtain rfl := odbcServer_silent hserve
  exact h x conn' hserve

/-- The connection once a statement is prepared and its parameters are bound. -/
def OdbcConn.bound (conn : OdbcConn) (sql : CStr) (params : List (Option CStr)) : OdbcConn :=
  { conn.fresh with sql, params }

@[simp] theorem OdbcConn.bound_db (conn : OdbcConn) (sql : CStr) (params : List (Option CStr)) :
    (conn.bound sql params).db = conn.db := rfl

theorem total_odbcBindTexts {texts params : List (Option CStr)} {sql : CStr} {Q : Bool → OdbcConn → Prop}
    (hlength : params.length + texts.length ≤ odbcMaxParams) (hok : Q true (conn.bound sql (params ++ texts)))
    (hfail : faults = true → ∀ conn', conn'.db = conn.db → Q false conn') :
    Total φ (odbcServer table faults) (odbcBindTexts params.length texts) Q (conn.bound sql params) := by
  induction texts generalizing params with
  | nil =>
    rw [List.append_nil] at hok
    exact hok
  | cons text rest ih =>
    rw [List.length_cons] at hlength
    unfold odbcBindTexts
    rw [if_neg (by omega), total_bind]
    refine total_odbcCall fun ok conn' hserve => ?_
    rcases hserve.2 with ⟨rfl, rfl⟩ | ⟨hfaults, rfl, hdb⟩
    · have htake : params.take (params.length + 1 - 1) = params := List.take_length
      have hnext := @ih (params ++ [text]) (by rw [List.length_append, List.length_singleton]; omega)
        (by rwa [List.append_assoc, List.singleton_append])
      rw [List.length_append, List.length_singleton] at hnext
      simp only [Bool.not_true, Bool.false_eq_true, if_false, OdbcConn.bound, htake]
      exact hnext
    · exact hfail hfaults conn' hdb

/-- **A statement** whose text is whole is prepared, bound and executed, or something fails. -/
theorem total_odbcRun {g : OdbcStatement} (hroom : table.length ≤ g.room) {texts : List (Option CStr)}
    (hlength : texts.length ≤ odbcMaxParams) {Q : Bool → OdbcConn → Prop}
    (hok : ∀ ok conn', OdbcExecutes table (conn.bound (g.template table) texts) ok conn' → Q ok conn')
    (hfail : faults = true → ∀ conn', conn'.db = conn.db → Q false conn') :
    Total φ (odbcServer table faults) (odbcRun (g.text table) texts) Q conn := by
  have htext := (g.text_eq_iff table).mpr hroom
  unfold odbcRun odbcPrepare
  simp only [total_bind]
  refine total_odbcCall fun ok conn₁ hserve => ?_
  rcases hserve.2 with ⟨rfl, rfl⟩ | ⟨hfaults, rfl, hdb⟩
  · simp only [Bool.not_true, Bool.false_eq_true, if_false]
    refine total_odbcCall fun ok conn₂ hserve => ?_
    rcases hserve.2 with ⟨rfl, -, rfl⟩ | ⟨hnone, -⟩ | ⟨hfaults, rfl, hdb⟩
    · simp only [total_bind, Bool.not_true, Bool.false_eq_true, if_false]
      have hroom : ([] : List (Option CStr)).length + texts.length ≤ odbcMaxParams := by simpa using hlength
      refine total_odbcBindTexts hroom ?_ fun hfaults conn₃ hdb => ?_
      · simp only [Bool.not_true, Bool.false_eq_true, if_false]
        refine total_odbcCall fun ok conn₃ hserve => ?_
        rcases hserve.2 with hexec | ⟨hfaults, rfl, hdb⟩
        · rw [htext] at hexec
          exact hok ok conn₃ hexec
        · exact hfail hfaults conn₃ hdb
      · exact hfail hfaults conn₃ hdb
    · exact absurd ⟨g, htext⟩ hnone
    · exact hfail hfaults conn₂ hdb
  · exact hfail hfaults conn₁ hdb

/-- The statement that is executed is the one its parameters make, if they fit. -/
theorem OdbcExecutes.executes {g : OdbcStatement} {texts : List (Option CStr)} {ok : Bool} {conn' : OdbcConn}
    (h : OdbcExecutes table (conn.bound (g.template table) texts) ok conn') :
    (match g.sqlOp texts with
      | some o => (conn.bound (g.template table) texts).Executes o ok conn'
      | none => ok = false ∧ conn' = conn.bound (g.template table) texts) ∨
    ¬ g.Fits texts ∧ ok = false ∧ conn'.db = conn.db := by
  rcases h with ⟨g', htext, hexec⟩ | ⟨hnone, -⟩
  · obtain rfl := OdbcStatement.template_injective htext
    rcases hexec with hexec | ⟨hwide, rfl, rfl⟩
    · exact .inl hexec
    · exact .inr ⟨hwide, rfl, rfl⟩
  · exact absurd ⟨g, rfl⟩ hnone

end

/-! ## Reading a row -/

/-- The texts of a row are C strings, each read within `turns` pieces. -/
def SqlRow.Within (turns : Nat) (row : SqlRow) : Prop :=
  ∀ col text, row.column col = some text → '\x00' ∉ text ∧ text.length / 511 < turns

theorem untilNul_eq_self {text : CStr} (h : '\x00' ∉ text) : untilNul text = text := by
  unfold untilNul
  rw [List.takeWhile_eq_self_iff]
  intro c hc
  simpa using fun heq : c = '\x00' => h (heq ▸ hc)

section

variable {table : CStr} {faults : Bool} {now : Int} {turns : Nat} {conn : OdbcConn}

abbrev OdbcTotal (table : CStr) (faults : Bool) (now : Int) {α : Type} (p : OdbcProg α) (Q : α → OdbcConn → Prop)
    (conn : OdbcConn) : Prop :=
  Total (Unless faults (Still now)) (odbcServer table faults) p Q conn

theorem total_odbcGetText {col : Nat} {buf : List Char} {Q : Int × Option (List Char) → OdbcConn → Prop}
    (hturns : ((conn.row col).getD []).length / 511 < turns)
    (hok : ∀ left, Q (0, (conn.row col).map (buf ++ ·)) { conn with row := Function.update conn.row col left })
    (hfail : faults = true → ∀ left, Q (-1, none) { conn with row := Function.update conn.row col left }) :
    OdbcTotal table faults now (odbcGetText col turns buf) Q conn := by
  induction turns generalizing buf conn with
  | zero => omega
  | succ turns ih =>
    rw [odbcGetText_succ]
    unfold OdbcTotal
    rw [total_bind]
    refine total_odbcCall fun reply conn' hserve => ?_
    obtain ⟨-, left, hdelivers, herror, rfl⟩ := hserve
    generalize hvalue : conn.row col = value at hdelivers hturns hok
    cases hdelivers with
    | error =>
      rw [odbcTake_error]
      exact hfail (herror rfl) _
    | null hrc =>
      rw [odbcTake_null hrc]
      exact hok none
    | @more rest ind chunk hlong hind hchunk =>
      rw [odbcTake_more hlong hind hchunk, total_bind]
      refine total_malloc_tried ?_ fun hfaults => hfail hfaults _
      refine ih ?_ (fun left' => ?_) fun hfaults left' => ?_
      · simp only [Function.update_self, Option.getD_some, List.length_drop] at hturns ⊢
        omega
      · simp only [Function.update_self, Function.update_idem, Option.map_some, List.append_assoc,
          List.take_append_drop]
        exact hok left'
      · simp only [Function.update_idem]
        exact hfail hfaults left'
    | last hshort hchunk =>
      rw [odbcTake_last hshort hchunk, total_bind]
      exact total_malloc_tried (hok _) fun hfaults => hfail hfaults _

/-- Columns read in turn, each of them once. -/
theorem total_odbcGetTexts {row : SqlRow} (hrow : row.Within turns) {cols : List Nat} (hcols : cols.Nodup)
    (hleft : ∀ col ∈ cols, conn.row col = row.column col) {Q : Option (List (Option CStr)) → OdbcConn → Prop}
    (hok : ∀ left, Q (some (cols.map row.column)) { conn with row := left })
    (hfail : faults = true → ∀ left, Q none { conn with row := left }) :
    OdbcTotal table faults now (odbcGetTexts turns cols) Q conn := by
  induction cols generalizing conn Q with
  | nil => exact hok conn.row
  | cons col rest ih =>
    obtain ⟨hcol, hrest⟩ := List.nodup_cons.mp hcols
    have hvalue : conn.row col = row.column col := hleft col List.mem_cons_self
    unfold odbcGetTexts OdbcTotal
    rw [total_bind]
    refine total_odbcGetText ?_ (fun left => ?_) fun hfaults left => hfail hfaults _
    · rw [hvalue]
      cases htext : row.column col with
      | none =>
        have hturns := (hrow 1 row.id rfl).2
        rw [Option.getD_none, List.length_nil, Nat.zero_div]
        omega
      | some text => exact (hrow col text htext).2
    · simp only [ne_eq, not_true_eq_false, if_false, total_bind]
      have hclean : ((conn.row col).map ([] ++ ·)).map untilNul = row.column col := by
        rw [hvalue]
        cases htext : row.column col with
        | none => rfl
        | some text => exact congrArg some (untilNul_eq_self (hrow col text htext).1)
      refine ih hrest (fun col' hcol' => ?_) (fun left' => ?_) fun hfaults left' => hfail hfaults left'
      · have hne : col' ≠ col := fun heq => hcol (heq ▸ hcol')
        exact (Function.update_of_ne hne _ _).trans (hleft col' (List.mem_cons_of_mem _ hcol'))
      · rw [hclean]
        exact hok left'

/-- **A row is read** as its session, or something fails. -/
theorem total_sessionFromRow {row : SqlRow} (hrow : row.Within turns) (hleft : conn.row = row.column)
    {Q : Option Session → OdbcConn → Prop} (hok : ∀ left, Q row.session { conn with row := left })
    (hfail : faults = true → ∀ left, Q none { conn with row := left }) :
    OdbcTotal table faults now (sessionFromRow turns) Q conn := by
  unfold sessionFromRow OdbcTotal
  rw [total_bind]
  refine total_odbcGetTexts hrow (by decide) (fun col _ => congrFun hleft col) (fun left => ?_) hfail
  refine total_tried (assuming_sessionFromStmt row) (onlyAllocates_sessionFromStmt row) (ensures_sessionFromStmt row)
    (hok left) fun hfaults out hout => ?_
  cases out with
  | none => exact hfail hfaults left
  | some s =>
    rw [← hout s rfl]
    exact hok left

end

/-! ## What a statement does -/

namespace OdbcConn.Executes

variable {conn conn' : OdbcConn} {ok : Bool}

theorem insert {id : CStr} {values : SqlValues} {createdAt : CStr}
    (h : conn.Executes (.insert id values createdAt) ok conn') :
    conn.db.answer (.insert id values createdAt) = (ok, conn'.db) := by
  simp only [Executes, SqlDb.selects, SqlDb.changes] at h
  cases hdone : (conn.db.answer (.insert id values createdAt)).1 with
  | true =>
    simp only [hdone, if_true, one_ne_zero, false_and, or_false] at h
    obtain ⟨rfl, rfl⟩ := h
    exact Prod.ext hdone rfl
  | false =>
    simp only [hdone, Bool.false_eq_true, if_false] at h
    obtain ⟨rfl, rfl⟩ := h
    refine Prod.ext hdone ?_
    unfold SqlDb.answer at hdone ⊢
    cases hrow : SqlDb.newRow id values createdAt with
    | none => simp only [hrow]
    | some row =>
      simp only [hrow] at hdone ⊢
      split
      · rename_i hnew
        simp [hnew] at hdone
      · rfl

theorem update {values : SqlValues} {id : CStr} (h : conn.Executes (.update values id) ok conn') :
    match (conn.db.answer (.update values id)).1 with
    | none => ok = false ∧ conn'.db = conn.db
    | some n => (ok = true ∨ n = 0 ∧ ok = false) ∧ conn'.db = (conn.db.answer (.update values id)).2 ∧ conn'.affected = n := by
  simp only [Executes, SqlDb.selects, SqlDb.changes] at h
  cases hn : (conn.db.answer (.update values id)).1 with
  | none =>
    rw [hn] at h
    exact ⟨h.1, congrArg OdbcConn.db h.2⟩
  | some n =>
    rw [hn] at h
    exact ⟨h.1, congrArg OdbcConn.db h.2, congrArg OdbcConn.affected h.2⟩

theorem deleteById {id : CStr} (h : conn.Executes (.deleteById id) ok conn') :
    (ok = true ∨ conn.db.find id = none ∧ ok = false) ∧ conn'.db = conn.db.without [id] := by
  obtain ⟨hok, rfl⟩ := h
  rw [SqlDb.without_singleton]
  refine ⟨hok.imp_right fun h => ⟨SqlDb.find_eq_none.mpr fun row hrow hid => ?_, h.2⟩, rfl⟩
  exact (List.countP_eq_zero.mp h.1) row hrow (by simpa using hid)

theorem deleteByUserId {userId : CStr} (h : conn.Executes (.deleteByUserId userId) ok conn') :
    (ok = true ∨ (∀ row ∈ conn.db.rows, row.userId ≠ userId) ∧ ok = false) ∧
      conn'.db = conn.db.deleteWhere fun row => row.userId == userId := by
  obtain ⟨hok, rfl⟩ := h
  refine ⟨hok.imp_right fun h => ⟨fun row hrow huser => ?_, h.2⟩, rfl⟩
  exact (List.countP_eq_zero.mp h.1) row hrow (by simpa using huser)

end OdbcConn.Executes

/-! ## The texts of a call -/

/-- The session's texts are within their columns. -/
structure Session.Narrow (s : Session) : Prop where
  id : ∀ text, s.id = some text → text.length ≤ 64
  userId : ∀ text, s.userId = some text → text.length ≤ 255
  publicKey : ∀ text, s.publicKey = some text → text.length ≤ 1024
  algorithm : ∀ text, s.algorithm = some text → text.length ≤ 64
  challenge : ∀ text, s.challenge = some text → text.length ≤ 1024

/-- The texts of a call are within their columns, or what `SQLBindParameter` is told. -/
def StoreOp.Narrow : StoreOp → Prop
  | .create s => s.Narrow
  | .get id => ∀ text, id = some text → text.length ≤ 1024
  | .update s => s.Narrow
  | .delete id => ∀ text, id = some text → text.length ≤ 1024
  | .getByUserId userId => ∀ text, userId = some text → text.length ≤ 1024
  | .deleteByUserId userId => ∀ text, userId = some text → text.length ≤ 1024

theorem formatRfc3339Utc_length {t : Int} {text : CStr} (h : formatRfc3339Utc t sqlTimeBuf = some text) :
    text.length ≤ 32 := by
  unfold formatRfc3339Utc at h
  obtain ⟨tm, -, h⟩ := Option.bind_eq_some_iff.mp h
  simp only [strftime, Option.ite_none_right_eq_some, Option.some.injEq] at h
  obtain ⟨hlt, rfl⟩ := h
  exact Nat.le_of_lt hlt

theorem odbcExpires_length {s : Session} {expires : Option CStr} (h : odbcExpires s = some expires) :
    ∀ text, expires = some text → text.length ≤ 32 := by
  unfold odbcExpires at h
  rintro text rfl
  split at h
  · obtain ⟨text', hformat, heq⟩ := Option.map_eq_some_iff.mp h
    rw [← Option.some.inj heq]
    exact formatRfc3339Utc_length hformat
  · cases h

theorem sessionStateStr_length (s : Session) : (sessionStateStr s).length ≤ 16 := by
  unfold sessionStateStr
  cases s.state <;> decide

/-- A text that is there. -/
theorem fits_some {width : Nat} {text : CStr} (h : text.length ≤ width) :
    ∀ text', some text = some text' → text'.length ≤ width := by
  rintro text' ⟨⟩
  exact h

theorem Session.Narrow.insert_fits {s : Session} (h : s.Narrow) {id createdAt : CStr} {expires : Option CStr}
    (hid : s.id = some id) (hexpires : odbcExpires s = some expires)
    (hcreated : formatRfc3339Utc s.createdAt sqlTimeBuf = some createdAt) :
    OdbcStatement.insert.Fits [some id, s.userId, some (sessionStateStr s), s.publicKey, s.algorithm, s.challenge,
      expires, some createdAt] :=
  .cons (fits_some (h.id id hid)) <| .cons h.userId <| .cons (fits_some (sessionStateStr_length s)) <|
    .cons h.publicKey <| .cons h.algorithm <| .cons h.challenge <| .cons (odbcExpires_length hexpires) <|
    .cons (fits_some (formatRfc3339Utc_length hcreated)) .nil

theorem Session.Narrow.update_fits {s : Session} (h : s.Narrow) {id : CStr} {expires : Option CStr}
    (hid : s.id = some id) (hexpires : odbcExpires s = some expires) :
    OdbcStatement.update.Fits [s.userId, some (sessionStateStr s), s.publicKey, s.algorithm, s.challenge, expires,
      some id] :=
  .cons h.userId <| .cons (fits_some (sessionStateStr_length s)) <| .cons h.publicKey <| .cons h.algorithm <|
    .cons h.challenge <| .cons (odbcExpires_length hexpires) <|
    .cons (fits_some ((h.id id hid).trans (by decide))) .nil

end OpenDbsc
