/-
The texts the ODBC store prepares, against the templates of its statements.

A text goes through a buffer of a fixed size, so it is its whole template
exactly when the table's name leaves room for the rest of it
(`OdbcStatement.text_eq_iff`). The name is checked for its characters only.
-/
import Mathlib.Data.List.TakeDrop
import OpenDbsc.Effects.Pool
import OpenDbsc.Odbc

namespace OpenDbsc

open Effects Prog

/-! ## Statements and their templates -/

inductive OdbcStatement where
  | insert
  | selectById
  | update
  | deleteById
  | selectByUserId
  | deleteByUserId

namespace OdbcStatement

/-- What stands before the table's name. -/
def head : OdbcStatement → CStr
  | insert => "INSERT INTO "
  | update => "UPDATE "
  | selectById | selectByUserId =>
    "SELECT id, user_id, state, public_key, algorithm, challenge, expires_at, created_at FROM "
  | deleteById | deleteByUserId => "DELETE FROM "

/-- What stands after it. -/
def tail : OdbcStatement → CStr
  | insert =>
    " (id, user_id, state, public_key, algorithm, challenge, expires_at, created_at) VALUES (?, ?, ?, ?, ?, ?, ?, ?)"
  | update =>
    " SET user_id = ?, state = ?, public_key = ?, algorithm = ?, challenge = ?, expires_at = ? WHERE id = ?"
  | selectById | deleteById => " WHERE id = ?"
  | selectByUserId | deleteByUserId => " WHERE user_id = ?"

/-- The condition of the rows it is about; an insertion has none. -/
def condition : OdbcStatement → CStr
  | insert => []
  | selectById | update | deleteById => " WHERE id = ?"
  | selectByUserId | deleteByUserId => " WHERE user_id = ?"

def template (g : OdbcStatement) (table : CStr) : CStr := g.head ++ table ++ g.tail

/-- The buffer its text is printed into. -/
def size : OdbcStatement → Nat
  | deleteById | deleteByUserId => 256
  | _ => 512

def text (g : OdbcStatement) (table : CStr) : CStr := snprintf g.size (g.template table)

/-- The longest name that leaves room for the rest of the template. -/
def room (g : OdbcStatement) : Nat := g.size - 1 - (g.head.length + g.tail.length)

/-- Whoever has the whole template has the condition. -/
theorem condition_suffix (g : OdbcStatement) (table : CStr) : g.condition <:+ g.template table := by
  have htail : g.condition <:+ g.tail := by cases g <;> decide +kernel
  exact htail.trans (List.suffix_append ..)

end OdbcStatement

/-- `snprintf` truncates a text exactly when it and its NUL do not fit. -/
theorem snprintf_eq_iff {size : Nat} (hsize : 0 < size) (text : CStr) :
    snprintf size text = text ↔ text.length < size := by
  rw [snprintf, List.take_eq_self_iff]
  omega

theorem OdbcStatement.text_eq_iff (g : OdbcStatement) (table : CStr) :
    g.text table = g.template table ↔ table.length ≤ g.room := by
  have hfits : g.head.length + g.tail.length < g.size := by cases g <;> decide +kernel
  rw [text, snprintf_eq_iff (Nat.zero_lt_of_lt hfits), template, List.length_append, List.length_append, room]
  omega

theorem buildSelectSql_id (ctx : OdbcCtx) :
    buildSelectSql ctx "id = ?" 512 = OdbcStatement.selectById.text ctx.tableName := by
  have htail : (" WHERE " : CStr) ++ ("id = ?" : CStr) = OdbcStatement.selectById.tail := by decide +kernel
  rw [buildSelectSql, List.append_assoc _ (" WHERE " : CStr), htail]
  rfl

theorem buildSelectSql_userId (ctx : OdbcCtx) :
    buildSelectSql ctx "user_id = ?" 512 = OdbcStatement.selectByUserId.text ctx.tableName := by
  have htail : (" WHERE " : CStr) ++ ("user_id = ?" : CStr) = OdbcStatement.selectByUserId.tail := by decide +kernel
  rw [buildSelectSql, List.append_assoc _ (" WHERE " : CStr), htail]
  rfl

/-! ## The six functions -/

inductive OdbcFunction where
  | create (session : Session)
  | get (id : CStr)
  | update (session : Session)
  | deleteUnlocked (id : CStr)
  | getByUserId (userId : CStr)
  | deleteByUserId (userId : CStr)

namespace OdbcFunction

@[reducible] def Ans : OdbcFunction → Type
  | get _ => Option Session
  | getByUserId _ => Option (List Session)
  | _ => Int

def program (turns rows : Nat) (ctx : OdbcCtx) : (f : OdbcFunction) → OdbcProg f.Ans
  | create session => odbcCreate ctx session
  | get id => odbcGet turns ctx id
  | update session => odbcUpdate ctx session
  | deleteUnlocked id => odbcDeleteUnlocked ctx id
  | getByUserId userId => odbcGetByUserId turns rows ctx userId
  | deleteByUserId userId => odbcDeleteByUserId ctx userId

/-- The statements it prepares; a lookup also deletes what has expired. -/
def statements : OdbcFunction → List OdbcStatement
  | create _ => [.insert]
  | get _ => [.selectById, .deleteById]
  | update _ => [.update]
  | deleteUnlocked _ => [.deleteById]
  | getByUserId _ => [.selectByUserId, .deleteById]
  | deleteByUserId _ => [.deleteByUserId]

end OdbcFunction

/-- Every text prepared is one of these statements'. -/
def Prepares (statements : List OdbcStatement) (table : CStr) : (Sys.sum OdbcSig).Op → Prop
  | .inr (.prepare sql) => ∃ g ∈ statements, sql = g.text table
  | _ => True

section

variable {statements : List OdbcStatement} {table : CStr} {turns rows : Nat}

theorem prepares_lift {α : Type} (p : Prog Sys α) : AllOps (Prepares statements table) p.lift :=
  allOps_lift (fun _ => trivial) p

theorem prepares_call (o : OdbcOp) (h : Prepares statements table (.inr o)) :
    AllOps (Prepares statements table) (odbcCall o) :=
  allOps_perform (S := Sys.sum OdbcSig) h

theorem prepares_bindTexts (nparams : Nat) (texts : List (Option CStr)) :
    AllOps (Prepares statements table) (odbcBindTexts nparams texts) := by
  induction texts generalizing nparams with
  | nil => exact allOps_pure _
  | cons text rest ih =>
    unfold odbcBindTexts
    split
    · exact allOps_pure _
    refine (prepares_call (.bindParameter (nparams + 1) text) trivial).bind fun b => ?_
    split
    · exact allOps_pure _
    · exact ih _

theorem prepares_run {g : OdbcStatement} (hg : g ∈ statements) (texts : List (Option CStr)) :
    AllOps (Prepares statements table) (odbcRun (g.text table) texts) := by
  refine AllOps.bind ?_ fun b => ?_
  · refine (prepares_call (.allocHandle .stmt) trivial).bind fun b => ?_
    split
    · exact allOps_pure _
    · exact prepares_call (.prepare _) ⟨g, hg, rfl⟩
  split
  · exact allOps_pure _
  refine (prepares_bindTexts ..).bind fun b => ?_
  split
  · exact allOps_pure _
  · exact prepares_call .execute trivial

theorem prepares_getText (col : Nat) (buf : List Char) :
    AllOps (Prepares statements table) (odbcGetText col turns buf) := by
  induction turns generalizing buf with
  | zero => exact prepares_lift _
  | succ turns ih =>
    refine (prepares_call (.getData col) trivial).bind fun ⟨rc, ind, chunk⟩ => ?_
    dsimp only
    split
    · exact allOps_pure _
    split
    · exact allOps_pure _
    refine (prepares_lift _).bind fun b => ?_
    split
    · exact allOps_pure _
    split
    · exact allOps_pure _
    · exact ih _

theorem prepares_getTexts (cols : List Nat) : AllOps (Prepares statements table) (odbcGetTexts turns cols) := by
  induction cols with
  | nil => exact allOps_pure _
  | cons col rest ih =>
    refine (prepares_getText col []).bind fun ⟨rc, text⟩ => ?_
    dsimp only
    split
    · exact allOps_pure _
    refine ih.bind fun texts => ?_
    split <;> exact allOps_pure _

theorem prepares_sessionFromRow : AllOps (Prepares statements table) (sessionFromRow turns) := by
  refine (prepares_getTexts _).bind fun texts => ?_
  split
  · exact prepares_lift _
  · exact allOps_pure _

theorem prepares_collect (now : Int) (sessions : List Session) (expired : List CStr) :
    AllOps (Prepares statements table) (odbcCollect turns now rows sessions expired) := by
  induction rows generalizing sessions expired with
  | zero => exact prepares_lift _
  | succ rows ih =>
    refine (prepares_call .fetch trivial).bind fun fetched => ?_
    split
    · refine prepares_sessionFromRow.bind fun tmp => ?_
      split
      · split
        · refine (prepares_lift _).bind fun copy => ?_
          split
          · refine (prepares_lift _).bind fun b => ?_
            split
            · exact allOps_pure _
            · exact ih ..
          · exact allOps_pure _
        · refine (prepares_lift _).bind fun b => ?_
          split
          · exact allOps_pure _
          · exact ih ..
      · exact allOps_pure _
    · exact allOps_pure _
    · exact allOps_pure _

end

section

variable {statements : List OdbcStatement} {ctx : OdbcCtx}

theorem prepares_deleteUnlocked (h : .deleteById ∈ statements) (id : CStr) :
    AllOps (Prepares statements ctx.tableName) (odbcDeleteUnlocked ctx id) := by
  refine (prepares_run h _).bind fun b => ?_
  split <;> exact allOps_pure _

theorem prepares_deleteEach (h : .deleteById ∈ statements) (ids : List CStr) :
    AllOps (Prepares statements ctx.tableName) (odbcDeleteEach ctx ids) := by
  induction ids with
  | nil => exact allOps_pure _
  | cons id rest ih => exact (prepares_deleteUnlocked h id).bind fun _ => ih

end

/-- Each function prepares the texts of its own statements only. -/
theorem prepares_program (turns rows : Nat) (ctx : OdbcCtx) (f : OdbcFunction) :
    AllOps (Prepares f.statements ctx.tableName) (f.program turns rows ctx) := by
  cases f with
  | create session =>
    change AllOps _ (odbcCreate ctx session)
    unfold odbcCreate
    split
    · exact allOps_pure _
    split
    · split
      · refine (prepares_run (g := .insert) List.mem_cons_self _).bind fun b => ?_
        split <;> exact allOps_pure _
      · exact allOps_pure _
    · exact allOps_pure _
  | get id =>
    change AllOps _ (odbcGet turns ctx id)
    unfold odbcGet
    rw [buildSelectSql_id]
    refine (prepares_run (g := .selectById) List.mem_cons_self _).bind fun b => ?_
    split
    · exact allOps_pure _
    refine (prepares_call .fetch trivial).bind fun fetched => ?_
    split
    · exact allOps_pure _
    refine (prepares_lift _).bind fun b => ?_
    split
    · exact allOps_pure _
    refine prepares_sessionFromRow.bind fun session => ?_
    split
    · refine (prepares_lift _).bind fun now => ?_
      split
      · refine (prepares_deleteUnlocked (List.mem_cons_of_mem _ List.mem_cons_self) id).bind fun _ => allOps_pure _
      · exact allOps_pure _
    · exact allOps_pure _
  | update session =>
    change AllOps _ (odbcUpdate ctx session)
    unfold odbcUpdate
    split
    · exact allOps_pure _
    split
    · refine (prepares_run (g := .update) List.mem_cons_self _).bind fun b => ?_
      split
      · exact allOps_pure _
      refine (prepares_call .rowCount trivial).bind fun affected => ?_
      split <;> exact allOps_pure _
    · exact allOps_pure _
  | deleteUnlocked id => exact prepares_deleteUnlocked List.mem_cons_self id
  | getByUserId userId =>
    change AllOps _ (odbcGetByUserId turns rows ctx userId)
    unfold odbcGetByUserId
    rw [buildSelectSql_userId]
    refine (prepares_lift _).bind fun now => ?_
    refine (prepares_run (g := .selectByUserId) List.mem_cons_self _).bind fun b => ?_
    split
    · exact allOps_pure _
    refine (prepares_collect now [] []).bind fun found => ?_
    split
    · exact (prepares_deleteEach (List.mem_cons_of_mem _ List.mem_cons_self) _).bind fun _ => allOps_pure _
    · exact allOps_pure _
  | deleteByUserId userId =>
    refine (prepares_run (g := .deleteByUserId) List.mem_cons_self _).bind fun b => ?_
    split <;> exact allOps_pure _

/-! ## Whole texts -/

def preparedText : Event (Sys.sum OdbcSig) → Option CStr
  | ⟨.inr (.prepare sql), _⟩ => some sql
  | _ => none

/-- The texts a run prepares. -/
def prepared (tr : List (Event (Sys.sum OdbcSig))) : List CStr := tr.filterMap preparedText

/-- In every run of the six functions, ended or not, a text prepared is the
whole template of a statement of the function's, its condition included. -/
def WholeTexts (ctx : OdbcCtx) : Prop :=
  ∀ (turns rows : Nat) (f : OdbcFunction) (tr : List (Event (Sys.sum OdbcSig))),
    Performs (f.program turns rows ctx) tr →
    ∀ sql ∈ prepared tr, ∃ g ∈ f.statements, sql = g.template ctx.tableName ∧ g.condition <:+ sql

theorem prepared_text {turns rows : Nat} {ctx : OdbcCtx} {f : OdbcFunction} {tr : List (Event (Sys.sum OdbcSig))}
    (h : Performs (f.program turns rows ctx) tr) {sql : CStr} (hsql : sql ∈ prepared tr) :
    ∃ g ∈ f.statements, sql = g.text ctx.tableName := by
  obtain ⟨e, he, hprepared⟩ := List.mem_filterMap.mp hsql
  obtain ⟨q, hsteps⟩ := h
  have hop := (prepares_program turns rows ctx f).steps hsteps e he
  unfold preparedText at hprepared
  split at hprepared
  · cases hprepared
    exact hop
  · cases hprepared

/-- The statement that leaves the least room is the deletion of a user's sessions. -/
theorem room_deleteByUserId (g : OdbcStatement) : OdbcStatement.deleteByUserId.room ≤ g.room := by
  cases g <;> decide +kernel

theorem wholeTexts_iff (ctx : OdbcCtx) :
    WholeTexts ctx ↔ ctx.tableName.length ≤ OdbcStatement.deleteByUserId.room := by
  constructor
  · intro h
    -- a run that has the text prepared; the driver refuses it
    have hrun : Trace (odbcDeleteByUserId ctx []) [⟨.inr (.allocHandle .stmt), true⟩,
        ⟨.inr (.prepare (OdbcStatement.deleteByUserId.text ctx.tableName)), false⟩] (-1) := .op (.op .ret)
    obtain ⟨g, hg, htext, -⟩ := h 0 0 (.deleteByUserId []) _ hrun.performs _ List.mem_cons_self
    rw [List.mem_singleton.mp hg, OdbcStatement.text_eq_iff] at htext
    exact htext
  · intro hlength turns rows f tr hperforms sql hsql
    obtain ⟨g, hg, rfl⟩ := prepared_text hperforms hsql
    have htext := (g.text_eq_iff ctx.tableName).mpr (hlength.trans (room_deleteByUserId g))
    exact ⟨g, hg, htext, htext ▸ g.condition_suffix ctx.tableName⟩

/-! ## The store that is created -/

theorem ensures_strdup_copy (s : CStr) : Ensures (strdup s) fun copy => ∀ t, copy = some t → t = s := by
  refine Ensures.bind_any fun b => ?_
  split
  · exact Ensures.pure fun t ht => (Option.some.inj ht).symm
  · exact Ensures.pure nofun

/-- What a store that is created has: the name asked for, or the default, and that name is valid. -/
def Named (config : OdbcConfig) (out : Option OdbcCtx) : Prop :=
  ∀ ctx, out = some ctx → ctx.tableName = config.tableName.getD "sessions" ∧ isValidIdentifier ctx.tableName = true

theorem named_guard {config : OdbcConfig} {c : Prop} [Decidable c] {p : OdbcProg (Option OdbcCtx)}
    (h : ¬ c → Ensures p (Named config)) : Ensures (if c then pure none else p) (Named config) := by
  split
  · exact Ensures.pure nofun
  · exact h ‹_›

theorem named_step {config : OdbcConfig} {p : OdbcProg Bool} {q : OdbcProg (Option OdbcCtx)}
    (h : Ensures q (Named config)) : Ensures (p >>= fun b => if !b then pure none else q) (Named config) :=
  Ensures.bind_any fun _ => named_guard fun _ => h

theorem named_optional {config : OdbcConfig} {c : Prop} [Decidable c] {p : OdbcProg Unit}
    {q : Unit → OdbcProg (Option OdbcCtx)} (h : Ensures (q ()) (Named config)) :
    Ensures (if c then p >>= q else q ()) (Named config) := by
  split
  · exact Ensures.bind_any fun _ => h
  · exact h

theorem ensures_odbcStoreCreate (config : OdbcConfig) : Ensures (odbcStoreCreate config) (Named config) := by
  unfold odbcStoreCreate
  cases config.connectionString with
  | none => exact Ensures.pure nofun
  | some connectionString =>
    refine named_guard fun hvalid => named_step ?_
    refine (ensures_strdup_copy _).lift.bind fun copy hcopy => ?_
    cases copy with
    | none => exact Ensures.pure nofun
    | some tableName =>
      have hname := hcopy tableName rfl
      have hnamed : Ensures (pure (some { tableName }) : OdbcProg (Option OdbcCtx)) (Named config) :=
        Ensures.pure fun ctx hctx => by
          cases hctx
          exact ⟨hname, hname ▸ by simpa using hvalid⟩
      refine named_step (named_step
        (named_step (named_step (named_optional (named_step (named_optional (named_step hnamed)))))))

/-- **When the store's statements are whole**: exactly when the table's name
has at most 225 characters. -/
theorem odbc_texts_whole_iff {config : OdbcConfig} {tr : List (Event (Sys.sum OdbcSig))} {ctx : OdbcCtx}
    (h : Trace (odbcStoreCreate config) tr (some ctx)) :
    WholeTexts ctx ↔ (config.tableName.getD "sessions").length ≤ 225 := by
  have hroom : OdbcStatement.deleteByUserId.room = 225 := by decide +kernel
  rw [wholeTexts_iff, (ensures_odbcStoreCreate config tr _ h ctx rfl).1, hroom]

/-- A driver that grants everything, and finds no row. -/
def odbcGranted : (o : (Sys.sum OdbcSig).Op) → Option ((Sys.sum OdbcSig).Ans o)
  | .inl (.malloc _) => some true
  | .inl .library => some true
  | .inl _ => none
  | .inr (.allocHandle _) => some true
  | .inr .setEnvAttr => some true
  | .inr (.setConnectAttr _) => some ()
  | .inr (.driverConnect _) => some true
  | .inr (.execDirect _) => some ()
  | .inr (.prepare _) => some true
  | .inr (.bindParameter ..) => some true
  | .inr .execute => some true
  | .inr .rowCount => some (some 0)
  | .inr .fetch => some .noData
  | .inr (.getData _) => none

def odbcConfig (tableName : Option CStr) : OdbcConfig where
  connectionString := some "DSN=sessions"
  tableName := tableName
  autoCreateTable := true
  loginTimeoutSeconds := 5

theorem odbc_texts_whole_default :
    ∃ tr ctx, Trace (odbcStoreCreate (odbcConfig none)) tr (some ctx) ∧ ctx.tableName = "sessions" ∧ WholeTexts ctx := by
  have hplayed : (follow (fun _ => odbcGranted) 0 (odbcStoreCreate (odbcConfig none))).map
      (fun r => r.2.map OdbcCtx.tableName) = some (some ("sessions" : CStr)) := by decide +kernel
  obtain ⟨⟨tr, out⟩, hplay, hout⟩ := Option.map_eq_some_iff.mp hplayed
  obtain ⟨ctx, rfl, hname⟩ := Option.map_eq_some_iff.mp hout
  have htrace := trace_follow hplay
  exact ⟨tr, ctx, htrace, hname, (odbc_texts_whole_iff htrace).mpr (by decide +kernel)⟩

/-- A valid name of 243 characters. -/
def longTableName : CStr := List.replicate 243 's'

/-- A store with such a name is created, and the text that should delete one
user's sessions is the one that deletes every session there is. -/
theorem odbc_deletes_every_session :
    ∃ tr ctx tr', Trace (odbcStoreCreate (odbcConfig (some longTableName))) tr (some ctx) ∧
      Trace (odbcDeleteByUserId ctx "alice") tr' 0 ∧ ("DELETE FROM " : CStr) ++ longTableName ∈ prepared tr' ∧
      ¬ WholeTexts ctx := by
  have hplayed : (follow (fun _ => odbcGranted) 0 (odbcStoreCreate (odbcConfig (some longTableName)))).map
      (fun r => r.2.map OdbcCtx.tableName) = some (some longTableName) := by decide +kernel
  obtain ⟨⟨tr, out⟩, hplay, hout⟩ := Option.map_eq_some_iff.mp hplayed
  obtain ⟨⟨tableName⟩, rfl, rfl⟩ := Option.map_eq_some_iff.mp hout
  have hdeleted : (follow (fun _ => odbcGranted) 0 (odbcDeleteByUserId ⟨longTableName⟩ "alice")).map
      (fun r => (prepared r.1, r.2)) = some ([("DELETE FROM " : CStr) ++ longTableName], 0) := by decide +kernel
  obtain ⟨⟨tr', code⟩, hplay', hcode⟩ := Option.map_eq_some_iff.mp hdeleted
  obtain ⟨hprepared, rfl⟩ := Prod.mk.inj hcode
  refine ⟨tr, _, tr', trace_follow hplay, trace_follow hplay', hprepared ▸ List.mem_cons_self, fun h => ?_⟩
  have hlength := (wholeTexts_iff _).mp h
  revert hlength
  decide +kernel

end OpenDbsc
