/-
The sets of a user's sessions while several calls are under way.

A call that removes an id from a user's set, or drops the set, has read or
deleted sessions first. As long as no session is stored and added to the set
in between, every session that can be read is in its user's set once no call
is under way (`redis_index_kept`). Otherwise a session escapes every later
bulk deletion (`redis_index_escaped`).
-/
import OpenDbsc.RedisPool

namespace OpenDbsc

open Effects Prog RedisPool

/-! ## What the calls do, in order -/

section

variable {L : Extern} {keyPrefix : CStr}

/-- A bind's trace, in its two parts. -/
theorem trace_parts {α β : Type} {p : RedisProg α} {f : α → RedisProg β} {tr b} (h : Trace (p >>= f) tr b)
    (hal : Within AllocsSucceed tr) : ∃ tr₁ a tr₂, tr = tr₁ ++ tr₂ ∧
      (Trace p tr₁ a ∧ Within AllocsSucceed tr₁) ∧ Trace (f a) tr₂ b ∧ Within AllocsSucceed tr₂ := by
  obtain ⟨tr₁, a, tr₂, rfl, hp, hf⟩ := trace_bind.mp h
  obtain ⟨hal₁, hal₂⟩ := within_append.mp hal
  exact ⟨tr₁, a, tr₂, rfl, ⟨hp, hal₁⟩, hf, hal₂⟩

/-- What an operation of the runtime returns while no allocation fails. -/
theorem trace_env {α : Type} {p : Prog Sys α} {tr a}
    (h : Trace (p.lift (T := RedisSig)) tr a ∧ Within AllocsSucceed tr) {Q : α → Prop}
    (hp : Returns AllocsSucceed (p.assuming allocOk) Q) : Q a := by
  obtain ⟨ht, hal⟩ := h
  obtain ⟨tr', rfl, ht'⟩ := trace_lift.mp ht
  have halloc : ∀ (o : Sys.Op) (x y : Sys.Ans o), allocOk o = some x → (AllocsSucceed ⟨o, y⟩ ↔ y = x) := by
    intro o x y hx
    exact ⟨fun h => h x hx, fun hxy z hz => hxy.trans (Option.some.inj (hx.symm.trans hz))⟩
  exact ((returns_assuming halloc).mp hp).trace ht' (within_map_inl.mp hal)

/-- A key that is asked for is there. -/
theorem trace_keyed {α : Type} {key : CStr} {f : Option CStr → RedisProg α} {tr a}
    (h : Trace ((redisKey key).lift >>= f) tr a) (hal : Within AllocsSucceed tr) :
    ∃ tr₁ tr₂, tr = tr₁ ++ tr₂ ∧ Trace (f (some key)) tr₂ a ∧ Within AllocsSucceed tr₂ := by
  obtain ⟨tr₁, k, tr₂, rfl, hkey, hrest, hal₂⟩ := trace_parts h hal
  have hreturns : Returns AllocsSucceed ((redisKey key).assuming allocOk) (· = some key) := by simp [redisKey]
  obtain rfl := trace_env hkey hreturns
  exact ⟨tr₁, tr₂, rfl, hrest, hal₂⟩

/-- A command, with its reply. -/
theorem trace_command {α : Type} {o : RedisOp} {f : Option RedisReply → RedisProg α} {tr a}
    (h : Trace (redisCommand o >>= f) tr a) : ∃ r tr', tr = replied o r :: tr' ∧ Trace (f r) tr' a := by
  obtain ⟨tr₁, r, tr₂, rfl, hr, hrest⟩ := trace_bind.mp h
  obtain rfl := trace_call.mp hr
  exact ⟨r, tr₂, rfl, hrest⟩

theorem within_tail {e : Event (Sys.sum RedisSig)} {tr : List (Event (Sys.sum RedisSig))}
    (h : Within AllocsSucceed (e :: tr)) : Within AllocsSucceed tr :=
  fun o x hmem => h o x (List.mem_cons_of_mem _ hmem)

/-- A deletion that returns has issued its `DEL`. -/
theorem redisDeleteWith_del {get : CStr → RedisProg (Option Session)} {id : CStr} {tr rc}
    (h : Trace (redisDeleteWith get keyPrefix id) tr rc) (hal : Within AllocsSucceed tr) :
    ∃ r, replied (.del (sessionKey keyPrefix id)) r ∈ tr := by
  obtain ⟨tr₁, session, tr₂, rfl, -, h₂, hal₂⟩ := trace_parts h hal
  obtain ⟨tr₃, ukey, tr₄, rfl, -, h₄, hal₄⟩ := trace_parts h₂ hal₂
  obtain ⟨tr₅, tr₆, rfl, h₆, -⟩ := trace_keyed h₄ hal₄
  obtain ⟨r, tr₇, rfl, -⟩ := trace_command h₆
  exact ⟨r, by simp⟩

/-- A session whose text is at the key is found, or its key is deleted. -/
theorem redisGet_settles {text : CStr} {d : Session} (htext : storedSession L text = some d) {frames : Nat} {id : CStr}
    {tr out} (h : Trace (redisGet L keyPrefix frames id) tr out) (hal : Within AllocsSucceed tr) :
    (∃ r, replied (.del (sessionKey keyPrefix id)) r ∈ tr) ∨
      (∃ r, replied (.get (sessionKey keyPrefix id)) r ∈ tr ∧ r ≠ some (.string text)) ∨ out = some d := by
  cases frames with
  | zero =>
    obtain ⟨tr', -, hundef⟩ := trace_lift.mp h
    obtain ⟨x, -⟩ := trace_op.mp hundef
    cases x
  | succ frames =>
    obtain ⟨tr₁, tr₂, rfl, h₂, hal₂⟩ := trace_keyed h hal
    obtain ⟨reply, tr₃, rfl, h₃⟩ := trace_command h₂
    by_cases hr : reply = some (.string text)
    · subst hr
      obtain ⟨tr₄, b, tr₅, rfl, hmalloc, h₅, hal₅⟩ := trace_parts h₃ (within_tail hal₂)
      have hreturns : Returns AllocsSucceed ((malloc sizeofSession).assuming allocOk) (· = true) := by simp
      obtain rfl := trace_env hmalloc hreturns
      obtain ⟨tr₆, res, tr₇, rfl, hparse, h₇, hal₇⟩ := trace_parts h₅ hal₅
      obtain ⟨obj, hobj, rfl⟩ := Option.map_eq_some_iff.mp htext
      have hreturns : Returns AllocsSucceed ((sessionFromJson L text sessionInit).assuming allocOk)
          (· = (0, sessionOfJson L obj)) := by
        rw [assuming_sessionFromJson, hobj]
        rfl
      obtain rfl := trace_env hparse hreturns
      obtain ⟨tr₈, expired, tr₉, rfl, -, h₉, hal₉⟩ := trace_parts h₇ hal₇
      cases expired with
      | false => exact .inr (.inr (trace_pure.mp h₉).2)
      | true =>
        obtain ⟨tr', rc, tr'', rfl, ⟨hdelete, hal'⟩, -⟩ := trace_parts h₉ hal₉
        obtain ⟨r, hr⟩ := redisDeleteWith_del hdelete hal'
        exact .inl ⟨r, by simp [hr]⟩
    · exact .inr (.inl ⟨reply, by simp, hr⟩)

/-- What a listing makes of a member of the set whose text is at its key. -/
theorem redisCollect_settles {text : CStr} {d : Session} (htext : storedSession L text = some d) {frames : Nat}
    {id : CStr}
    {elements : List RedisReply} {found sessions : List Session} {tr}
    (h : Trace (redisCollect (redisGet L keyPrefix frames) elements found) tr (some sessions))
    (hal : Within AllocsSucceed tr) (hid : .string id ∈ elements ∨ d ∈ found) :
    (∃ r, replied (.del (sessionKey keyPrefix id)) r ∈ tr) ∨
      (∃ r, replied (.get (sessionKey keyPrefix id)) r ∈ tr ∧ r ≠ some (.string text)) ∨ d ∈ sessions := by
  induction elements generalizing found tr with
  | nil =>
    obtain ⟨-, heq⟩ := trace_pure.mp h
    cases heq
    exact .inr (.inr (hid.resolve_left List.not_mem_nil))
  | cons element rest ih =>
    obtain ⟨tr₁, m, tr₂, rfl, ⟨hmember, hal₁⟩, h₂, hal₂⟩ := trace_parts h hal
    -- the member itself is settled by its own lookup, one further on by the rest
    have hsettled : (∃ r, replied (.del (sessionKey keyPrefix id)) r ∈ tr₁) ∨
        (∃ r, replied (.get (sessionKey keyPrefix id)) r ∈ tr₁ ∧ r ≠ some (.string text)) ∨
        m = some d ∨ .string id ∈ rest ∨ d ∈ found := by
      rcases hid with hid | hid
      · rcases List.mem_cons.mp hid with rfl | hid
        · rcases redisGet_settles htext hmember hal₁ with hdel | hget | hout
          · exact .inl hdel
          · exact .inr (.inl hget)
          · exact .inr (.inr (.inl hout))
        · exact .inr (.inr (.inr (.inl hid)))
      · exact .inr (.inr (.inr (.inr hid)))
    rcases hsettled with ⟨r, hr⟩ | ⟨r, hr, hne⟩ | hrest
    · exact .inl ⟨r, List.mem_append_left _ hr⟩
    · exact .inr (.inl ⟨r, List.mem_append_left _ hr, hne⟩)
    · have hih : (∃ r, replied (.del (sessionKey keyPrefix id)) r ∈ tr₂) ∨
          (∃ r, replied (.get (sessionKey keyPrefix id)) r ∈ tr₂ ∧ r ≠ some (.string text)) ∨ d ∈ sessions := by
        cases m with
        | none => exact ih h₂ hal₂ (hrest.resolve_left (fun h => nomatch h))
        | some session =>
          obtain ⟨tr₃, b, tr₄, rfl, hmalloc, h₄, hal₄⟩ := trace_parts h₂ hal₂
          have hreturns :
            Returns AllocsSucceed ((malloc ((found.length + 1) * sizeofSession)).assuming allocOk) (· = true) := by
            simp
          obtain rfl := trace_env hmalloc hreturns
          have hid' : .string id ∈ rest ∨ d ∈ found ++ [session] := by
            rcases hrest with hsome | hrest | hfound
            · cases hsome
              exact .inr (List.mem_append_right _ List.mem_cons_self)
            · exact .inl hrest
            · exact .inr (List.mem_append_left _ hfound)
          rcases ih h₄ hal₄ hid' with ⟨r, hr⟩ | ⟨r, hr, hne⟩ | hd
          · exact .inl ⟨r, List.mem_append_right _ hr⟩
          · exact .inr (.inl ⟨r, List.mem_append_right _ hr, hne⟩)
          · exact .inr (.inr hd)
      rcases hih with ⟨r, hr⟩ | ⟨r, hr, hne⟩ | hd
      · exact .inl ⟨r, List.mem_append_right _ hr⟩
      · exact .inr (.inl ⟨r, List.mem_append_right _ hr, hne⟩)
      · exact .inr (.inr hd)

/-- Each session is deleted by its id. -/
theorem redisDeleteEach_del {d : Session} {id : CStr} (hid : d.id = some id) {frames : Nat} {sessions : List Session}
    (hd : d ∈ sessions) {tr u} (h : Trace (redisDeleteEach (redisDelete L keyPrefix frames) sessions) tr u)
    (hal : Within AllocsSucceed tr) : ∃ r, replied (.del (sessionKey keyPrefix id)) r ∈ tr := by
  induction sessions generalizing tr with
  | nil => cases hd
  | cons s rest ih =>
    unfold redisDeleteEach at h
    split at h
    · rename_i hnone
      rcases List.mem_cons.mp hd with rfl | hd
      · rw [hid] at hnone
        cases hnone
      · exact ih hd h hal
    · rename_i id' hid'
      obtain ⟨tr₁, rc, tr₂, rfl, ⟨hdelete, hal₁⟩, h₂, hal₂⟩ := trace_parts h hal
      rcases List.mem_cons.mp hd with rfl | hd
      · rw [hid] at hid'
        cases hid'
        obtain ⟨r, hr⟩ := redisDeleteWith_del hdelete hal₁
        exact ⟨r, List.mem_append_left _ hr⟩
      · obtain ⟨r, hr⟩ := ih hd h₂ hal₂
        exact ⟨r, List.mem_append_right _ hr⟩

/-- A listing that returns has read the set. -/
theorem redisGetByUserId_settles {frames : Nat} {user : CStr} {sessions : List Session} {tr}
    (h : Trace (redisGetByUserId L keyPrefix frames user) tr (some sessions)) (hal : Within AllocsSucceed tr) :
    ∃ tr₀ r tr₁, tr = tr₀ ++ replied (.smembers (userKey keyPrefix (some user))) r :: tr₁ ∧
      ∀ elements id text d, r = some (.array elements) → .string id ∈ elements → storedSession L text = some d →
        (∃ r, replied (.del (sessionKey keyPrefix id)) r ∈ tr₁) ∨
          (∃ r, replied (.get (sessionKey keyPrefix id)) r ∈ tr₁ ∧ r ≠ some (.string text)) ∨ d ∈ sessions := by
  obtain ⟨tr₀, tr₁, rfl, h₁, hal₁⟩ := trace_keyed h hal
  obtain ⟨r, tr₂, rfl, h₂⟩ := trace_command h₁
  refine ⟨tr₀, r, tr₂, rfl, fun elements id text d hr hid htext => ?_⟩
  subst hr
  exact redisCollect_settles htext h₂ (within_tail hal₁) (.inl hid)

/-- Before a bulk deletion drops the user's set it has read it, and each
member whose text is at its key has been deleted. -/
theorem redisDeleteByUserId_settles {frames : Nat} {user : CStr} {key : CStr}
    (hkey : ∀ id, key ≠ sessionKey keyPrefix id)
    {tr reply} (h : Performs (redisDeleteByUserId L keyPrefix frames user) (tr ++ [replied (.del key) reply]))
    (hal : Within AllocsSucceed tr) : ∃ tr₀ r tr₁, tr = tr₀ ++ replied (.smembers key) r :: tr₁ ∧
      ∀ elements id text d, r = some (.array elements) → .string id ∈ elements → storedSession L text = some d →
        d.id = some id → (∃ r, replied (.del (sessionKey keyPrefix id)) r ∈ tr₁) ∨
          ∃ r, replied (.get (sessionKey keyPrefix id)) r ∈ tr₁ ∧ r ≠ some (.string text) := by
  have hψ : AllowsLookup keyPrefix (· ≠ .del key) :=
    ⟨fun id h => (nomatch h), fun id h => hkey id (RedisOp.del.inj h).symm, fun userId id h => (nomatch h)⟩
  have hC := compositional_allOps (· ≠ RedisOp.del key)
  have hget : ∀ id, AllOps (Commands (· ≠ .del key)) (redisGet L keyPrefix frames id) := allOps_redisGet hψ frames
  have hlistOps : AllOps (Commands (· ≠ .del key)) (redisGetByUserId L keyPrefix frames user) :=
    hC.redisGetByUserId hget (allOps_command fun h => nomatch h)
  have heachOps :
    ∀ sessions, AllOps (Commands (· ≠ .del key)) (redisDeleteEach (redisDelete L keyPrefix frames) sessions) :=
    hC.redisDeleteEach (hC.redisDeleteWith hψ.removes hget)
  have hlast : ¬ Commands (· ≠ .del key) (replied (.del key) reply).op := fun h => h rfl
  obtain ⟨tr₁, found, tr₂, rfl, hlist, h₂⟩ := hlistOps.performs_bind hlast h
  obtain ⟨hal₁, hal₂⟩ := within_append.mp hal
  cases found with
  | none =>
    have hnil := performs_pure.mp h₂
    simp at hnil
  | some sessions =>
    obtain ⟨tr₃, u, tr₄, rfl, heach, h₄⟩ := (heachOps sessions).performs_bind hlast h₂
    obtain ⟨tr₅, k, tr₆, rfl, hukey, h₆⟩ := (hC.lift (redisKey (userKey keyPrefix (some user)))).performs_bind hlast h₄
    obtain ⟨tr₅', -, hukey'⟩ := trace_lift.mp hukey
    have hkeys : key = userKey keyPrefix (some user) := by
      rcases trace_redisKey hukey' with rfl | rfl
      · cases tr₆ with
        | nil =>
          obtain ⟨x, heq, -⟩ := performs_op.mp h₆
          cases heq
          rfl
        | cons e tr₆ =>
          obtain ⟨x, -, hpure⟩ := performs_op.mp h₆
          have hnil := performs_pure.mp hpure
          simp at hnil
      · have hnil := performs_pure.mp h₆
        simp at hnil
    obtain ⟨tr₀, r, tr₇, rfl, hsettles⟩ := redisGetByUserId_settles hlist hal₁
    rw [hkeys]
    refine ⟨tr₀, r, tr₇ ++ (tr₃ ++ (tr₅ ++ tr₆)), by simp, fun elements id text d hr hid htext hd => ?_⟩
    rcases hsettles elements id text d hr hid htext with ⟨r, hr⟩ | ⟨r, hr, hne⟩ | hmem
    · exact .inl ⟨r, List.mem_append_left _ hr⟩
    · exact .inr ⟨r, List.mem_append_left _ hr, hne⟩
    · obtain ⟨r, hr⟩ := redisDeleteEach_del hd hmem heach (within_append.mp hal₂).1
      exact .inl ⟨r, List.mem_append_right _ (List.mem_append_left _ hr)⟩

/-- An id is taken out of a set only after its session's key is deleted. -/
theorem before_srem (L : Extern) (keyPrefix : CStr) (frames : Nat) (op : StoreOp) (id : CStr) :
    Before (fun e => ∃ r, e = replied (.del (sessionKey keyPrefix id)) r) (fun o => ∃ key, o = .inr (.srem key id))
      (redisStore L keyPrefix frames op) := by
  have hC : Compositional fun _ p => Before (fun e => ∃ r, e = replied (.del (sessionKey keyPrefix id)) r)
      (fun o => ∃ key, o = .inr (.srem key id)) p :=
    ⟨fun _ => before_pure _, fun hp hf => hp.bind hf, fun _ _ h => ⟨fun ⟨_, hop⟩ => (nomatch hop), fun x => .inr (h x)⟩⟩
  have hcommand : ∀ o : RedisOp, (∀ key, o ≠ .srem key id) →
      Before (fun e => ∃ r, e = replied (.del (sessionKey keyPrefix id)) r) (fun o => ∃ key, o = .inr (.srem key id))
        (redisCommand o) := by
    intro o ho
    exact ⟨fun ⟨key, hop⟩ => ho key (Sum.inr.inj hop), fun x => .inr trivial⟩
  refine hC.redisStore ?_ (fun id' => hcommand (.get _) fun _ h => nomatch h)
    (fun user => hcommand (.smembers _) fun _ h => nomatch h) (fun s id' json ex _ _ => ?_)
    (fun user _ => hcommand (.del _) fun _ h => nomatch h) frames
  · intro id' ukey _
    refine hC.keyed ?_ (before_pure _)
    by_cases hid : id' = id
    · subst hid
      exact ⟨fun ⟨_, hop⟩ => (nomatch hop), fun x => .inl ⟨x, rfl⟩⟩
    · refine (hcommand (.del _) fun _ h => nomatch h).bind fun r => ?_
      cases ukey with
      | none => exact before_pure _
      | some key =>
        refine (hcommand (.srem key id') fun _ h => ?_).bind fun r => before_pure _
        exact hid (RedisOp.srem.inj h).2
  · refine (hcommand (.set _ _ _) fun _ h => nomatch h).bind fun r => ?_
    split
    · exact before_pure _
    · refine (hcommand (.sadd _ _) fun _ h => nomatch h).bind fun r => ?_
      split <;> exact before_pure _

/-- A session that is written is added to its user's set. -/
theorem leads_sadd (L : Extern) (keyPrefix : CStr) (frames : Nat) {op : StoreOp} {s : Session} {id : CStr}
    (hwritten : op.written = some s) (hid : s.id = some id) :
    Leads (fun e => ∃ key value ex r, e = replied (.set key value ex) r ∧ redisFailed r = false)
      (fun e => ∃ r, e = replied (.sadd (userKey keyPrefix s.userId) id) r) (redisStore L keyPrefix frames op) := by
  have hC : Compositional fun _ p =>
    Leads (fun e => ∃ key value ex r, e = replied (.set key value ex) r ∧ redisFailed r = false)
      (fun e => ∃ r, e = replied (.sadd (userKey keyPrefix s.userId) id) r) p :=
    ⟨fun _ => leads_pure _, fun hp hf => hp.bind hf, fun _ _ h x => ⟨fun ⟨_, _, _, _, he, _⟩ => (nomatch he), h x⟩⟩
  have hcommand : ∀ o : RedisOp, (∀ key value ex, o ≠ .set key value ex) →
      Leads (fun e => ∃ key value ex r, e = replied (.set key value ex) r ∧ redisFailed r = false)
        (fun e => ∃ r, e = replied (.sadd (userKey keyPrefix s.userId) id) r) (redisCommand o) := by
    intro o ho x
    refine ⟨fun ⟨key, value, ex, r, he, _⟩ => ?_, trivial⟩
    exact ho key value ex (Sum.inr.inj (congrArg Event.op he))
  refine hC.redisStore ?_ (fun id' => hcommand (.get _) fun _ _ _ h => nomatch h)
    (fun user => hcommand (.smembers _) fun _ _ _ h => nomatch h) (fun s' id' json ex hwritten' hid' => ?_)
    (fun user _ => hcommand (.del _) fun _ _ _ h => nomatch h) frames
  · intro id' ukey _
    refine hC.keyed ?_ (leads_pure _)
    refine (hcommand (.del _) fun _ _ _ h => nomatch h).bind fun r => ?_
    cases ukey with
    | none => exact leads_pure _
    | some key => exact (hcommand (.srem _ _) fun _ _ _ h => nomatch h).bind fun r => leads_pure _
  · cases hwritten.symm.trans hwritten'
    cases hid.symm.trans hid'
    intro x
    show (_ → Reaches _ (if redisFailed x = true then _ else _)) ∧ Leads _ _ (if redisFailed x = true then _ else _)
    cases hx : redisFailed x with
    | true =>
      refine ⟨fun ⟨_, _, _, r, he, hr⟩ => ?_, leads_pure _⟩
      cases he
      cases hx.symm.trans hr
    | false =>
      refine ⟨fun _ r => .inl ⟨r, rfl⟩, ?_⟩
      refine (hcommand (.sadd _ _) fun _ _ _ h => nomatch h).bind fun r => ?_
      split <;> exact leads_pure _

/-- The text of a session. -/
def textOf (L : Extern) (s : Session) : CStr := L.printUnformatted (.obj (sessionFields L s))

/-- The text a command may write. -/
def Writes (text : CStr) (o : RedisOp) : Prop := ∀ key value ex, o = .set key value ex → value = text

theorem redisCreate_text {s : Session} {tr} (h : Performs (redisCreate L keyPrefix s) tr)
    (hal : Within AllocsSucceed tr) :
    ∀ e ∈ tr, Commands (Writes (textOf L s)) e.op := by
  have hC := compositional_allOps (Writes (textOf L s))
  unfold redisCreate at h
  split at h
  · rw [performs_pure.mp h]
    exact fun _ he => (List.not_mem_nil he).elim
  · rename_i id hid
    rcases performs_bind.mp h with ⟨q, hjson⟩ | ⟨tr₁, json, tr₂, rfl, hjson, q, hrest⟩
    · exact (hC.lift _).steps hjson
    · have hreturns : Returns AllocsSucceed ((sessionToJson L s).assuming allocOk) (· = some (textOf L s)) := by
        rw [assuming_sessionToJson]
        rfl
      have hwrite : ∀ ex, AllOps (Commands (Writes (textOf L s))) (redisWrite (sessionKey keyPrefix id)
          (userKey keyPrefix s.userId) id (textOf L s) ex) := by
        intro ex
        refine AllOps.bind (allOps_command fun key value ex' h => ?_) fun r => ?_
        · cases h
          rfl
        · split
          · exact allOps_pure _
          · refine (allOps_command fun key value ex' h => nomatch h).bind fun r => ?_
            split <;> exact allOps_pure _
      obtain rfl := trace_env ⟨hjson, (within_append.mp hal).1⟩ hreturns
      intro e he
      rcases List.mem_append.mp he with he | he
      · exact (hC.lift (sessionToJson L s)).trace hjson e he
      · refine AllOps.steps ?_ hrest e he
        refine hC.keyed (hC.keyed ?_ (allOps_pure _)) ((hC.lift _).bind fun ukey => allOps_pure _)
        exact (hC.lift _).bind hwrite

/-- A call writes the text of its session, at its key. -/
theorem redisStore_text {frames : Nat} {op : StoreOp} {tr} (h : Performs (redisStore L keyPrefix frames op) tr)
    (hal : Within AllocsSucceed tr) {key value : CStr} {ex r} (hset : replied (.set key value ex) r ∈ tr) :
    ∃ s id, op.written = some s ∧ s.id = some id ∧ key = sessionKey keyPrefix id ∧ value = textOf L s := by
  obtain ⟨q, hsteps⟩ := h
  obtain ⟨s, id, hwritten, hid, hkey⟩ := (allOps_redisStore L keyPrefix frames op).steps hsteps _ hset
  refine ⟨s, id, hwritten, hid, hkey, ?_⟩
  cases op with
  | create s' =>
    cases hwritten
    exact redisCreate_text ⟨q, hsteps⟩ hal _ hset key value ex rfl
  | update s' =>
    cases hwritten
    have hget : AllOps (Commands fun o => ∀ key value ex, o ≠ .set key value ex) (redisGet L keyPrefix frames id) :=
      allOps_redisGet ⟨fun _ _ _ _ h => (nomatch h), fun _ _ _ _ h => (nomatch h),
        fun _ _ _ _ _ h => (nomatch h)⟩ frames id
    have hperf : Performs (redisUpdate L keyPrefix frames s) tr := ⟨q, hsteps⟩
    unfold redisUpdate at hperf
    simp only [hid] at hperf
    rcases performs_bind.mp hperf with ⟨q', hq'⟩ | ⟨tr₁, found, tr₂, rfl, htr₁, hrest⟩
    · exact absurd rfl (hget.steps hq' _ hset key value ex)
    · rcases List.mem_append.mp hset with hset | hset
      · exact absurd rfl (hget.trace htr₁ _ hset key value ex)
      · cases found with
        | none =>
          rw [performs_pure.mp hrest] at hset
          cases hset
        | some _ => exact redisCreate_text hrest (within_append.mp hal).2 _ hset key value ex rfl
  | _ => cases hwritten

end

/-! ## Interleavings -/

section

variable {ι : Type} {calls : ι → StoreOp}

/-- A failed allocation can change what the call stores or deletes. -/
def StoreOp.NeedsMemory : StoreOp → Prop
  | .create _ => True
  | .update _ => True
  | .deleteByUserId _ => True
  | _ => False

/-- Call `i` writes its session at the key of `id`. -/
def WritesSession (keyPrefix id : CStr) (i : ι) (s : Session) (t : Move calls) : Prop :=
  (calls i).written = some s ∧ s.id = some id ∧
    ∃ value ex r, RedisPool.Replies t i (.set (sessionKey keyPrefix id) value ex) r

/-- What `t` left at the session's key has been there ever since. -/
def Stands (keyPrefix id : CStr) (t : Move calls) (since : List (Move calls)) : Prop :=
  ∀ t' ∈ since, t'.post.shared (sessionKey keyPrefix id) = t.post.shared (sessionKey keyPrefix id)

/-- Since call `j` issued `o`, a call whose session is still at the key of `id` has added `id` to the user's set. -/
def AddedSince (keyPrefix : CStr) (h : List (Move calls)) (j : ι) (o : RedisOp) (ukey id : CStr) : Prop :=
  ∃ i s h₁ t h₂, h = h₁ ++ t :: h₂ ∧ WritesSession keyPrefix id i s t ∧ Stands keyPrefix id t h₂ ∧
    userKey keyPrefix s.userId = ukey ∧
    ∃ g₁ tj g₂, h = g₁ ++ tj :: g₂ ∧ (∃ r, RedisPool.Replies tj j o r) ∧
      ∃ ta ∈ g₂, ∃ r, RedisPool.Replies ta i (.sadd ukey id) r

/-- A set is not dropped when a session was stored and added since it was read,
nor is an id taken out when its session was since it was deleted. -/
def KeepsAdded (keyPrefix : CStr) (h : List (Move calls)) (t : Move calls) : Prop :=
  (∀ j ukey r, RedisPool.Replies t j (.del ukey) r → ∀ id, ¬ AddedSince keyPrefix h j (.smembers ukey) ukey id) ∧
  ∀ j ukey id r, RedisPool.Replies t j (.srem ukey id) r →
    ¬ AddedSince keyPrefix h j (.del (sessionKey keyPrefix id)) ukey id

end

section

variable {ι : Type} [DecidableEq ι] {calls : ι → StoreOp} {L : Extern} {keyPrefix : CStr} {frames : Nat}
  {h : List (Move calls)} {P P' : RedisPool calls} {l : Pool.Label Sys RedisSig ι}

/-- A run of the calls from the empty keyspace, with no command failing and keys expiring. -/
abbrev ServerRun (L : Extern) (keyPrefix : CStr) (frames : Nat) (h : List (Move calls)) (P : RedisPool calls) : Prop :=
  Run (Pool.Step redisServer Keyspace.Evicts) (RedisPool.start L keyPrefix frames calls Keyspace.empty) h P

/-- What a step does to the keyspace. -/
theorem serverStep_cases (hs : Pool.Step redisServer Keyspace.Evicts P l P') :
    P.shared.Evicts P'.shared ∧ l = none ∨
      (∃ i o x, l = some (i, ⟨.inl o, x⟩) ∧ P'.shared = P.shared) ∨
      ∃ i o r, l = some (i, replied o (some r)) ∧ P'.shared = (P.shared.answer o).2 ∧
        RedisReply.Reorders (P.shared.answer o).1 r := by
  cases hs with
  | self hevict => exact .inl ⟨hevict, rfl⟩
  | @thread i e p st hthread =>
    obtain ⟨o, x⟩ := e
    have heffect := hthread.effect
    cases o with
    | inl o => exact .inr (.inl ⟨i, o, x, rfl, heffect⟩)
    | inr o =>
      obtain ⟨tr, -, hks, r, hreorders, rfl⟩ := heffect
      exact .inr (.inr ⟨i, o, r, rfl, hks, hreorders⟩)

/-- The commands of a step are ones its call may issue. -/
def StepIssues (keyPrefix : CStr) (calls : ι → StoreOp) (l : Pool.Label Sys RedisSig ι) : Prop :=
  ∀ i o r, l = some (i, replied o r) → (calls i).MayIssue keyPrefix o

theorem PlainSets.step (hsets : PlainSets keyPrefix P.shared) (hs : Pool.Step redisServer Keyspace.Evicts P l P')
    (hmay : StepIssues keyPrefix calls l) : PlainSets keyPrefix P'.shared := by
  rcases serverStep_cases hs with ⟨hevict, -⟩ | ⟨i, o, x, -, heq⟩ | ⟨i, o, r, hl, heq, -⟩
  · generalize P'.shared = ks' at hevict ⊢
    obtain ⟨hkey⟩ := hevict
    exact hsets.update (.inl rfl)
  · rw [heq]
    exact hsets
  · rw [heq]
    have hissue := hmay i o _ hl
    cases o with
    | set key value ex =>
      obtain ⟨s, id, -, -, rfl⟩ := hissue
      exact hsets.update (.inr fun userId => (sessionKey_ne_userKey keyPrefix id userId).symm)
    | get key => exact hsets
    | del key => exact hsets.update (.inl rfl)
    | sadd key member =>
      obtain ⟨s, -, -, rfl⟩ := hissue
      exact hsets.sadd _ member
    | srem key member =>
      obtain ⟨userId, rfl⟩ := hissue
      exact hsets.srem _ member
    | smembers key => exact hsets

/-- A session's key is left alone, removed or written by a call for its id. -/
theorem sessionKey_step (hs : Pool.Step redisServer Keyspace.Evicts P l P') (hmay : StepIssues keyPrefix calls l)
    (id : CStr) :
    P'.shared (sessionKey keyPrefix id) = P.shared (sessionKey keyPrefix id) ∨
      P'.shared (sessionKey keyPrefix id) = none ∨
      ∃ i s, WritesSession keyPrefix id i s (⟨P, l, P'⟩ : Move calls) := by
  have hne := sessionKey_ne_userKey keyPrefix id
  rcases serverStep_cases hs with ⟨hevict, -⟩ | ⟨i, o, x, -, heq⟩ | ⟨i, o, r, hl, heq, -⟩
  · generalize P'.shared = ks' at hevict ⊢
    obtain ⟨hkey⟩ := hevict
    rename_i key value
    by_cases hid : sessionKey keyPrefix id = key
    · rw [hid]
      exact .inr (.inl (Function.update_self _ _ _))
    · exact .inl (Function.update_of_ne hid _ _)
  · exact .inl (by rw [heq])
  · have hissue := hmay i o _ hl
    rw [heq]
    cases o with
    | set key value ex =>
      obtain ⟨s, id', hwritten, hid', rfl⟩ := hissue
      by_cases hid : id = id'
      · subst hid
        exact .inr (.inr ⟨i, s, hwritten, hid', value, ex, _, hl⟩)
      · exact .inl (Function.update_of_ne (fun h => hid (sessionKey_inj.mp h)) _ _)
    | get key => exact .inl rfl
    | del key =>
      by_cases hid : sessionKey keyPrefix id = key
      · rw [hid]
        exact .inr (.inl (Function.update_self _ _ _))
      · exact .inl (Function.update_of_ne hid _ _)
    | sadd key member =>
      obtain ⟨s, -, -, rfl⟩ := hissue
      exact .inl (Keyspace.sadd_other _ _ (hne _))
    | srem key member =>
      obtain ⟨userId, rfl⟩ := hissue
      exact .inl (Keyspace.srem_other _ _ (hne _))
    | smembers key => exact .inl rfl

/-- A member of a user's set stays there until it is taken out or the set is dropped. -/
theorem members_step (hsets : PlainSets keyPrefix P.shared) (hs : Pool.Step redisServer Keyspace.Evicts P l P')
    (hmay : StepIssues keyPrefix calls l) {userId : Option CStr} {id : CStr}
    (hmem : id ∈ P.shared.members (userKey keyPrefix userId)) :
    id ∈ P'.shared.members (userKey keyPrefix userId) ∨
      (∃ j r, l = some (j, replied (.srem (userKey keyPrefix userId) id) r)) ∨
      ∃ j r, l = some (j, replied (.del (userKey keyPrefix userId)) r) := by
  have hstay : ∀ {ks' : Keyspace}, ks' (userKey keyPrefix userId) = P.shared (userKey keyPrefix userId) →
      id ∈ ks'.members (userKey keyPrefix userId) := by
    intro ks' h
    rwa [Keyspace.members_congr h]
  rcases serverStep_cases hs with ⟨hevict, -⟩ | ⟨i, o, x, -, heq⟩ | ⟨i, o, r, hl, heq, -⟩
  · generalize P'.shared = ks' at hevict ⊢
    obtain ⟨hkey⟩ := hevict
    rename_i key value
    refine .inl (hstay (Function.update_of_ne ?_ _ _))
    rintro rfl
    obtain ⟨members, hentry⟩ := hsets userId _ hkey
    cases hentry
  · exact .inl (hstay (by rw [heq]))
  · have hissue := hmay i o _ hl
    rw [heq]
    cases o with
    | set key value ex =>
      obtain ⟨s, id', -, -, rfl⟩ := hissue
      exact .inl (hstay (Function.update_of_ne (sessionKey_ne_userKey keyPrefix id' userId).symm _ _))
    | get key => exact .inl hmem
    | del key =>
      by_cases hkey : userKey keyPrefix userId = key
      · exact .inr (.inr ⟨i, _, by rw [hkey]; exact hl⟩)
      · exact .inl (hstay (Function.update_of_ne hkey _ _))
    | sadd key member =>
      obtain ⟨s, -, -, rfl⟩ := hissue
      by_cases hkey : userKey keyPrefix userId = userKey keyPrefix s.userId
      · refine .inl ?_
        rw [hkey] at hmem ⊢
        show id ∈ Keyspace.members (P.shared.sadd _ member).2 _
        rw [Keyspace.members_sadd member (hsets.isSet s.userId)]
        split
        · exact hmem
        · exact List.mem_append_left _ hmem
      · exact .inl (hstay (Keyspace.sadd_other _ _ hkey))
    | srem key member =>
      obtain ⟨userId', rfl⟩ := hissue
      by_cases hkey : userKey keyPrefix userId = userKey keyPrefix userId'
      · by_cases hid : member = id
        · subst hid
          exact .inr (.inl ⟨i, _, by rw [hkey]; exact hl⟩)
        · refine .inl ?_
          rw [hkey] at hmem ⊢
          show id ∈ Keyspace.members (P.shared.srem _ member).2 _
          rw [Keyspace.members_srem]
          exact List.mem_filter.mpr ⟨hmem, decide_eq_true (Ne.symm hid)⟩
      · exact .inl (hstay (Keyspace.srem_other _ _ hkey))
    | smembers key => exact .inl hmem

theorem stepIssues_of_run {h₁ t h₂} (hrun : ServerRun L keyPrefix frames (h₁ ++ t :: h₂) P) :
    StepIssues keyPrefix calls t.label :=
  fun _ _ _ hl => mayIssue_of_run hrun (List.mem_append_right _ List.mem_cons_self) hl

theorem plainSets_of_run (hrun : ServerRun L keyPrefix frames h P) : PlainSets keyPrefix P.shared := by
  refine hrun.invariant (P := fun _ (P : RedisPool calls) => PlainSets keyPrefix P.shared) ?_ ?_
  · intro userId entry hentry
    cases hentry
  · intro h P l P' hrun hsets hs
    exact hsets.step hs (stepIssues_of_run (hrun.step hs))

/-- What is at a session's key was written by a call for its id. -/
theorem exists_writer (hrun : ServerRun L keyPrefix frames h P) {id : CStr} {entry : RedisEntry}
    (hentry : P.shared (sessionKey keyPrefix id) = some entry) :
    ∃ i s h₁ t h₂, h = h₁ ++ t :: h₂ ∧ WritesSession keyPrefix id i s t ∧ Stands keyPrefix id t h₂ ∧
      t.post.shared (sessionKey keyPrefix id) = some entry := by
  induction hrun with
  | init => cases hentry
  | @step h P l P' hrun hs ih =>
    rcases sessionKey_step hs (stepIssues_of_run (hrun.step hs)) id with hsame | hnone | ⟨i, s, hwrites⟩
    · obtain ⟨i, s, h₁, t, h₂, rfl, hwrites, hstands, hpost⟩ := ih (hsame.symm.trans hentry)
      refine ⟨i, s, h₁, t, h₂ ++ [⟨P, l, P'⟩], by simp, hwrites, fun t' ht' => ?_, hpost⟩
      rcases List.mem_append.mp ht' with ht' | ht'
      · exact hstands t' ht'
      · rw [List.mem_singleton.mp ht']
        exact hentry.trans hpost.symm
    · cases hnone.symm.trans hentry
    · exact ⟨i, s, h, _, [], rfl, hwrites, fun _ ht' => (List.not_mem_nil ht').elim, hentry⟩

/-- No allocation fails that a call needs. -/
def MemorySuffices (h : List (Move calls)) : Prop :=
  ∀ i, (calls i).NeedsMemory → Within AllocsSucceed (Pool.eventsOf i h)

theorem MemorySuffices.of_append {h₁ h₂ : List (Move calls)} (hmem : MemorySuffices (h₁ ++ h₂)) :
    MemorySuffices h₁ := by
  intro i hi
  have hall := hmem i hi
  rw [Pool.eventsOf_append] at hall
  exact (within_append.mp hall).1

theorem StoreOp.needsMemory_of_written {op : StoreOp} {s : Session} (h : op.written = some s) : op.NeedsMemory := by
  cases op with
  | create _ => trivial
  | update _ => trivial
  | _ => cases h

/-- A call that writes its session leaves its text at the key. -/
theorem writesSession_post {h₁ t h₂} (hrun : ServerRun L keyPrefix frames (h₁ ++ t :: h₂) P)
    (hmem : MemorySuffices (h₁ ++ t :: h₂)) {id : CStr} {i s} (hwrites : WritesSession keyPrefix id i s t) :
    ∃ expires, t.post.shared (sessionKey keyPrefix id) = some ⟨.string (textOf L s), expires⟩ := by
  obtain ⟨hwritten, -, value, ex, r, hset⟩ := hwrites
  have hevent : replied (.set (sessionKey keyPrefix id) value ex) r ∈ Pool.eventsOf i (h₁ ++ t :: h₂) :=
    Pool.mem_eventsOf.mpr ⟨t, List.mem_append_right _ List.mem_cons_self, hset⟩
  obtain ⟨s', -, hwritten', -, -, rfl⟩ :=
    redisStore_text ⟨_, Pool.steps hrun i⟩ (hmem i (StoreOp.needsMemory_of_written hwritten)) hevent
  cases hwritten.symm.trans hwritten'
  obtain ⟨-, hstep, -⟩ := Pool.transition hrun
  rcases serverStep_cases hstep with ⟨-, hl⟩ | ⟨j, o, x, hl, -⟩ | ⟨j, o, r', hl, heq, -⟩
  · cases hl.symm.trans hset
  · cases hl.symm.trans hset
  · cases hl.symm.trans hset
    rw [heq]
    exact ⟨ex.isSome, Function.update_self _ _ _⟩

/-- A `DEL` removes the key. -/
theorem del_post {h₁ t h₂} (hrun : ServerRun L keyPrefix frames (h₁ ++ t :: h₂) P) {i key r}
    (ht : RedisPool.Replies t i (.del key) r) : t.post.shared key = none := by
  obtain ⟨-, hstep, -⟩ := Pool.transition hrun
  rcases serverStep_cases hstep with ⟨-, hl⟩ | ⟨j, o, x, hl, -⟩ | ⟨j, o, r', hl, heq, -⟩
  · cases hl.symm.trans ht
  · cases hl.symm.trans ht
  · cases hl.symm.trans ht
    rw [heq]
    exact Function.update_self _ _ _

/-- A `GET` replies with what is at the key. -/
theorem get_reply {h₁ t h₂} (hrun : ServerRun L keyPrefix frames (h₁ ++ t :: h₂) P) {i key r} {text : CStr}
    {expires : Bool}
    (ht : RedisPool.Replies t i (.get key) r) (hpost : t.post.shared key = some ⟨.string text, expires⟩) :
    r = some (.string text) := by
  obtain ⟨-, hstep, -⟩ := Pool.transition hrun
  rcases serverStep_cases hstep with ⟨-, hl⟩ | ⟨j, o, x, hl, -⟩ | ⟨j, o, r', hl, heq, hreorders⟩
  · cases hl.symm.trans ht
  · cases hl.symm.trans ht
  · cases hl.symm.trans ht
    have hks : t.pre.shared key = some ⟨.string text, expires⟩ := by rw [← hpost, heq]; rfl
    unfold Keyspace.answer Keyspace.get at hreorders
    simp only [hks] at hreorders
    cases hreorders
    rfl

/-- `SMEMBERS` replies with the set. -/
theorem smembers_reply {h₁ t h₂} (hrun : ServerRun L keyPrefix frames (h₁ ++ t :: h₂) P) {i userId r}
    (ht : RedisPool.Replies t i (.smembers (userKey keyPrefix userId)) r) {id : CStr}
    (hid : id ∈ t.pre.shared.members (userKey keyPrefix userId)) :
    ∃ elements, r = some (.array elements) ∧ .string id ∈ elements := by
  obtain ⟨hrun₁, hstep, -⟩ := Pool.transition hrun
  rcases serverStep_cases hstep with ⟨-, hl⟩ | ⟨j, o, x, hl, -⟩ | ⟨j, o, r', hl, heq, hreorders⟩
  · cases hl.symm.trans ht
  · cases hl.symm.trans ht
  · cases hl.symm.trans ht
    unfold Keyspace.answer at hreorders
    simp only [Keyspace.smembers_eq ((plainSets_of_run hrun₁).isSet userId), RedisReply.reorders_array,
      perm_string] at hreorders
    obtain ⟨_, ⟨ids, hperm, rfl⟩, rfl⟩ := hreorders
    exact ⟨_, rfl, List.mem_map_of_mem (hperm.mem_iff.mp hid)⟩

theorem storedSession_textOf {s : Session} (hjson : ReadsBack L s) : ∃ d, storedSession L (textOf L s) = some d ∧
    d.id = s.id ∧ d.userId = s.userId := by
  have hd : s.recoded L = some (sessionOfJson L (.obj (sessionFields L s))) := by
    unfold Session.recoded storedSession
    rw [hjson, Option.map_some]
  exact ⟨_, hd, recoded_core hjson hd⟩

/-- An id added to its user's set is not taken out while the session stored before stands. -/
theorem srem_kept {id : CStr} {i s h₁ t h₂ ta tl} (hrun : ServerRun L keyPrefix frames (h₁ ++ t :: h₂ ++ [tl]) P)
    (hkeep : KeepsAdded keyPrefix (h₁ ++ t :: h₂) tl) (hwrites : WritesSession keyPrefix id i s t)
    (hstands : Stands keyPrefix id t h₂) (hpost : t.post.shared (sessionKey keyPrefix id) ≠ none) (hta : ta ∈ h₂)
    (hadd : ∃ r, RedisPool.Replies ta i (.sadd (userKey keyPrefix s.userId) id) r) {j r}
    (htl : RedisPool.Replies tl j (.srem (userKey keyPrefix s.userId) id) r) : False := by
  obtain ⟨td, htd, e, hlabel, r', rfl⟩ := Pool.before hrun htl (before_srem L keyPrefix frames (calls j) id) ⟨_, rfl⟩
  rcases List.mem_append.mp htd with htd | htd
  · obtain ⟨g₁, g₂, rfl⟩ := List.append_of_mem htd
    refine hkeep.2 j _ id r htl ⟨i, s, g₁ ++ td :: g₂, t, h₂, rfl, hwrites, hstands, rfl, g₁, td, g₂ ++ t :: h₂, ?_, ?_⟩
    · simp
    · exact ⟨⟨r', hlabel⟩, ta, List.mem_append_right _ (List.mem_cons_of_mem _ hta), hadd⟩
  · rcases List.mem_cons.mp htd with rfl | htd
    · obtain ⟨-, -, value, ex, r'', hset⟩ := hwrites
      cases hlabel.symm.trans hset
    · obtain ⟨g₁, g₂, rfl⟩ := List.append_of_mem htd
      have hnone : td.post.shared (sessionKey keyPrefix id) = none := by
        have hrun' : ServerRun L keyPrefix frames (h₁ ++ t :: g₁ ++ td :: (g₂ ++ [tl])) P := by simpa using hrun
        exact del_post hrun' hlabel
      exact hpost ((hstands td htd).symm.trans hnone)

/-- Nor is the set dropped, if the id was in it when it was read. -/
theorem del_kept {id : CStr} {i s h₁ t h₂ ta tl} (hrun : ServerRun L keyPrefix frames (h₁ ++ t :: h₂ ++ [tl]) P)
    (hmemory : MemorySuffices (h₁ ++ t :: h₂)) (hkeep : KeepsAdded keyPrefix (h₁ ++ t :: h₂) tl) (hjson : ReadsBack L s)
    (hwrites : WritesSession keyPrefix id i s t) (hstands : Stands keyPrefix id t h₂) (hta : ta ∈ h₂)
    (hadd : ∃ r, RedisPool.Replies ta i (.sadd (userKey keyPrefix s.userId) id) r)
    (hread : ∀ g₁ tm g₂, h₁ ++ t :: h₂ = g₁ ++ tm :: g₂ → ∀ g, g₁ = h₁ ++ t :: g → ta ∈ g →
      id ∈ tm.pre.shared.members (userKey keyPrefix s.userId)) {j r}
    (htl : RedisPool.Replies tl j (.del (userKey keyPrefix s.userId)) r) : False := by
  have hne := fun id' => (sessionKey_ne_userKey keyPrefix id' s.userId).symm
  obtain ⟨hrun₁, -, -⟩ := Pool.transition hrun
  obtain ⟨user, hcall, hkey⟩ := (mayIssue_of_run hrun (List.mem_append_right _ List.mem_cons_self) htl).resolve_left
    fun ⟨id', hid'⟩ => hne id' hid'
  have hperf := Pool.performs hrun htl
  have hal := hmemory j (by rw [hcall]; trivial)
  unfold RedisPool.start at hperf
  simp only at hperf
  rw [hcall] at hperf
  obtain ⟨tr₀, r', tr₁, htr, hsettles⟩ := redisDeleteByUserId_settles hne hperf hal
  obtain ⟨g₁, tm, g₂, hsplit, hlabel, -, rfl⟩ := Pool.eventsOf_split htr
  have hnot : ta ∉ g₂ := fun hin =>
    hkeep.1 j _ r htl id ⟨i, s, h₁, t, h₂, rfl, hwrites, hstands, rfl, g₁, tm, g₂, hsplit, ⟨r', hlabel⟩, ta, hin, hadd⟩
  have htm : t ≠ tm := by
    rintro rfl
    obtain ⟨-, -, value, ex, r'', hset⟩ := hwrites
    cases hlabel.symm.trans hset
  rcases List.append_eq_append_iff.mp hsplit with ⟨c, rfl, hc⟩ | ⟨c, rfl, hc⟩
  · cases c with
    | nil => exact htm (List.cons_eq_cons.mp hc).1
    | cons t' c =>
      obtain ⟨rfl, rfl⟩ := List.cons_eq_cons.mp hc
      -- the id was added before the set was read, so it was found there
      have htac : ta ∈ c := by
        rcases List.mem_append.mp hta with hta | hta
        · exact hta
        · rcases List.mem_cons.mp hta with rfl | hta
          · obtain ⟨r'', hr''⟩ := hadd
            cases hlabel.symm.trans hr''
          · exact absurd hta hnot
      rw [hsplit] at hrun₁ hmemory
      obtain ⟨elements, rfl, hel⟩ := smembers_reply hrun₁ hlabel (hread _ tm g₂ hsplit c rfl htac)
      obtain ⟨d, htext, hdid, -⟩ := storedSession_textOf hjson
      rw [← hsplit] at hrun₁ hmemory
      obtain ⟨expires, hpost⟩ := writesSession_post hrun₁ hmemory hwrites
      have hsince : ∀ t' ∈ g₂, t'.post.shared (sessionKey keyPrefix id) = some ⟨.string (textOf L s), expires⟩ :=
        fun t' ht' => (hstands t' (List.mem_append_right _ (List.mem_cons_of_mem _ ht'))).trans hpost
      have hrunAt : ∀ t' ∈ g₂, ∃ k₁ k₂, ∃ P' : RedisPool calls, ServerRun L keyPrefix frames (k₁ ++ t' :: k₂) P' := by
        intro t' ht'
        obtain ⟨k₁, k₂, hk⟩ := List.append_of_mem (List.mem_append_right (h₁ ++ t :: c) (List.mem_cons_of_mem tm ht'))
        exact ⟨k₁, k₂, _, hk ▸ hsplit ▸ hrun₁⟩
      rcases hsettles elements id (textOf L s) d rfl hel htext
        (hdid.trans hwrites.2.1) with ⟨r'', hmem⟩ | ⟨r'', hmem, hbad⟩
      · obtain ⟨t', ht', hdel⟩ := Pool.mem_eventsOf.mp hmem
        obtain ⟨k₁, k₂, P', hrun'⟩ := hrunAt t' ht'
        cases (hsince t' ht').symm.trans (del_post hrun' hdel)
      · obtain ⟨t', ht', hget⟩ := Pool.mem_eventsOf.mp hmem
        obtain ⟨k₁, k₂, P', hrun'⟩ := hrunAt t' ht'
        exact hbad (get_reply hrun' hget (hsince t' ht'))
  · cases c with
    | nil => exact htm (List.cons_eq_cons.mp hc).1.symm
    | cons t' c =>
      obtain ⟨rfl, rfl⟩ := List.cons_eq_cons.mp hc
      exact hnot (List.mem_append_right _ (List.mem_cons_of_mem _ hta))

/-- **An id that a call has added to its user's set stays there while the
session the call has stored stands.** -/
theorem member_of_added (hrun : ServerRun L keyPrefix frames h P) (hmemory : MemorySuffices h)
    (hkeep : Throughout (KeepsAdded keyPrefix) h) {id : CStr} {i s h₁ t h₂ ta} (hjson : ReadsBack L s)
    (hh : h = h₁ ++ t :: h₂) (hwrites : WritesSession keyPrefix id i s t) (hstands : Stands keyPrefix id t h₂)
    (hta : ta ∈ h₂) (hadd : ∃ r, RedisPool.Replies ta i (.sadd (userKey keyPrefix s.userId) id) r) :
    id ∈ P.shared.members (userKey keyPrefix s.userId) := by
  induction hn : h.length using Nat.strong_induction_on generalizing h P h₂ with
  | _ n ih =>
    subst hh
    rcases List.eq_nil_or_concat h₂ with rfl | ⟨g, tl, rfl⟩
    · cases hta
    · rw [List.concat_eq_append] at hn hstands hta
      rw [List.concat_eq_append, ← List.cons_append, ← List.append_assoc] at hrun hmemory hkeep
      obtain ⟨hrun₁, hstep, hrun₂⟩ := Pool.transition hrun
      obtain rfl := hrun₂.nil
      have hstands' : Stands keyPrefix id t g := fun t' ht' => hstands t' (List.mem_append_left _ ht')
      have hmay := stepIssues_of_run hrun
      have hsets := plainSets_of_run hrun₁
      rcases List.mem_append.mp hta with hta | hta
      · have hmem := ih _ (by rw [← hn]; simp) hrun₁ hmemory.of_append hkeep.of_append rfl hstands' hta rfl
        rcases members_step hsets hstep hmay hmem with hmem | ⟨j, r, hl⟩ | ⟨j, r, hl⟩
        · exact hmem
        · obtain ⟨expires, hpost⟩ := writesSession_post hrun₁ hmemory.of_append hwrites
          exact (srem_kept hrun hkeep.last hwrites hstands'
            (by rw [hpost]; exact Option.some_ne_none _) hta hadd hl).elim
        · refine (del_kept hrun hmemory.of_append hkeep.last hjson hwrites hstands' hta hadd ?_ hl).elim
          intro g₁ tm g₂ hsplit c hc htac
          subst hc
          have hg : g = c ++ tm :: g₂ := by simpa using hsplit
          subst hg
          have hrunm := hrun₁
          have hmemorym := hmemory.of_append
          have hkeepm := hkeep.of_append
          rw [hsplit] at hrunm hmemorym hkeepm
          refine ih _ ?_ (Pool.transition hrunm).1 hmemorym.of_append hkeepm.of_append rfl
            (fun t' ht' => hstands' t' (List.mem_append_left _ ht')) htac rfl
          rw [← hn]
          simp only [List.length_append, List.length_cons]
          omega
      · obtain ⟨r, hr⟩ := hadd
        rw [List.mem_singleton.mp hta] at hr
        rcases serverStep_cases hstep with ⟨-, hl⟩ | ⟨j, o, x, hl, -⟩ | ⟨j, o, r', hl, heq, -⟩
        · cases hl.symm.trans hr
        · cases hl.symm.trans hr
        · cases hl.symm.trans hr
          rw [heq]
          show id ∈ Keyspace.members (tl.pre.shared.sadd _ id).2 _
          rw [Keyspace.members_sadd id (hsets.isSet s.userId)]
          split
          · assumption
          · exact List.mem_append_right _ List.mem_cons_self

/-- A call that has written its session and returned has added it to its user's set. -/
theorem sadd_of_returned {id : CStr} {i s h₁ t h₂} (hrun : ServerRun L keyPrefix frames (h₁ ++ t :: h₂) P)
    (hwrites : WritesSession keyPrefix id i s t) {a : (calls i).Ans} (ha : P.threads i = .ret a) :
    ∃ ta ∈ h₂, ∃ r, RedisPool.Replies ta i (.sadd (userKey keyPrefix s.userId) id) r := by
  obtain ⟨hwritten, hid, value, ex, r, hset⟩ := hwrites
  have htrace : Trace (redisStore L keyPrefix frames (calls i)) (Pool.eventsOf i (h₁ ++ t :: h₂)) a := by
    rw [← steps_ret, ← ha]
    exact Pool.steps hrun i
  have hok : redisFailed r = false := by
    obtain ⟨-, hstep, -⟩ := Pool.transition hrun
    rcases serverStep_cases hstep with ⟨-, hl⟩ | ⟨j, o, x, hl, -⟩ | ⟨j, o, r', hl, -, hreorders⟩
    · cases hl.symm.trans hset
    · cases hl.symm.trans hset
    · cases hl.symm.trans hset
      cases hreorders
      rfl
  rw [Pool.eventsOf_append, Pool.eventsOf_cons i hset] at htrace
  obtain ⟨e, he, r', rfl⟩ := (leads_sadd L keyPrefix frames hwritten hid).trace htrace ⟨_, value, ex, r, rfl, hok⟩
  obtain ⟨ta, hta, hlabel⟩ := Pool.mem_eventsOf.mp he
  exact ⟨ta, hta, r', hlabel⟩

/-- **Every session is in its user's set once no call is under way**, in every
run that keeps what is added while a set is read and dropped, or a session
deleted. -/
theorem redis_index_kept (hrun : ServerRun L keyPrefix frames h P)
    (hjson : ∀ i s, (calls i).written = some s → ReadsBack L s) (hmemory : MemorySuffices h)
    (hkeep : Throughout (KeepsAdded keyPrefix) h) (hquiet : ∀ i, Pool.eventsOf i h = [] ∨ ∃ a, P.threads i = .ret a)
    (id : CStr) (r : Session) (hread : readSession L P.shared (sessionKey keyPrefix id) = some r) :
    id ∈ P.shared.members (userKey keyPrefix r.userId) := by
  unfold readSession Keyspace.get at hread
  cases hkey : P.shared (sessionKey keyPrefix id) with
  | none =>
    simp only [hkey] at hread
    cases hread
  | some entry =>
    obtain ⟨i, s, h₁, t, h₂, rfl, hwrites, hstands, hpost⟩ := exists_writer hrun hkey
    obtain ⟨expires, htext⟩ := writesSession_post hrun hmemory hwrites
    cases hpost.symm.trans htext
    simp only [hkey] at hread
    have hs := hjson i s hwrites.1
    obtain ⟨d, hd, -, huser⟩ := storedSession_textOf hs
    cases hd.symm.trans hread
    rw [huser]
    obtain ⟨value, ex, r', hset⟩ := hwrites.2.2
    rcases hquiet i with hnil | ⟨a, ha⟩
    · rw [Pool.eventsOf_append, Pool.eventsOf_cons i hset] at hnil
      exact absurd (List.append_eq_nil_iff.mp hnil).2 (List.cons_ne_nil _ _)
    · obtain ⟨ta, hta, hadd⟩ := sadd_of_returned hrun hwrites ha
      exact member_of_added hrun hmemory hkeep hs rfl hwrites hstands hta hadd

end

/-- A session being created, and its user's sessions being deleted. -/
def createDuringBulkDelete : Fin 2 → StoreOp
  | 0 => .create (plainSession "a" "u")
  | 1 => .deleteByUserId (some "u".toList)

theorem memorySuffices_play {ι : Type} [DecidableEq ι] {calls : ι → StoreOp} {schedule : List ι}
    {P P' : RedisPool calls}
    {h : List (Move calls)} (hplay : Pool.play (steadySys 0) steadyServer schedule P = some (h, P')) :
    MemorySuffices h := by
  intro i _ o x hmem y hy
  obtain ⟨t, ht, hl⟩ := Pool.mem_eventsOf.mp hmem
  have hx := Pool.answered_play hplay ht hl
  have hsteady : steadySys 0 o = some y := by
    cases o with
    | malloc n => exact hy
    | library => exact hy
    | _ => cases hy
  exact Option.some.inj (hx.symm.trans hsteady)

theorem readsBack_createDuringBulkDelete (i : Fin 2) (s : Session) (hs : (createDuringBulkDelete i).written = some s) :
    ReadsBack (Extern.knowing [plainObject "a" "u"] fun _ _ => false) s := by
  match i with
  | 0 =>
    cases hs
    exact knowing_parse [] fun _ h => (List.not_mem_nil h).elim
  | 1 => cases hs

/-- The bulk deletion reads the empty set, the session is created, and the bulk
deletion drops the set. -/
theorem redis_index_escaped : ∃ (L : Extern) (h : List (Move createDuringBulkDelete)) (P : RedisPool createDuringBulkDelete),
    ServerRun L "dbsc" 1 h P ∧ (∀ i s, (createDuringBulkDelete i).written = some s → ReadsBack L s) ∧ MemorySuffices h ∧
    P.threads 0 = .ret (0 : Int) ∧ P.threads 1 = .ret (0 : Int) ∧
    readSession L P.shared (sessionKey "dbsc" "a") = some (plainSession "a" "u") ∧
    P.shared.members (userKey "dbsc" (some "u".toList)) = [] := by
  let L := Extern.knowing [plainObject "a" "u"] fun _ _ => false
  let played := Pool.play (steadySys 0) steadyServer [1, 0, 0, 1]
    (RedisPool.start L "dbsc" 1 createDuringBulkDelete Keyspace.empty)
  have hplayed : (played.map fun r =>
    ((show Option Int from (r.2.threads 0).returned), (show Option Int from (r.2.threads 1).returned),
      readSession L r.2.shared (sessionKey "dbsc" "a"), r.2.shared.members (userKey "dbsc" (some "u".toList)))) =
      some (some 0, some 0, some (plainSession "a" "u"), []) := by
    decide +kernel
  obtain ⟨⟨h, P⟩, hplay, hresult⟩ := Option.map_eq_some_iff.mp hplayed
  obtain ⟨hcreated, hresult⟩ := Prod.ext_iff.mp hresult
  obtain ⟨hdeleted, hresult⟩ := Prod.ext_iff.mp hresult
  obtain ⟨hread, hmembers⟩ := Prod.ext_iff.mp hresult
  exact ⟨L, h, P, Pool.run_play steadyServer_server hplay, readsBack_createDuringBulkDelete, memorySuffices_play hplay,
    returned_eq_some hcreated, returned_eq_some hdeleted, hread, hmembers⟩

/-- The session is created after the bulk deletion has dropped the set. -/
theorem redis_index_kept_after : ∃ (L : Extern) (h : List (Move createDuringBulkDelete)) (P : RedisPool createDuringBulkDelete),
    ServerRun L "dbsc" 1 h P ∧ P.threads 0 = .ret (0 : Int) ∧ P.threads 1 = .ret (0 : Int) ∧
    readSession L P.shared (sessionKey "dbsc" "a") = some (plainSession "a" "u") ∧
    ("a" : CStr) ∈ P.shared.members (userKey "dbsc" (plainSession "a" "u").userId) := by
  let L := Extern.knowing [plainObject "a" "u"] fun _ _ => false
  let first := Pool.play (steadySys 0) steadyServer [1, 1]
    (RedisPool.start L "dbsc" 1 createDuringBulkDelete Keyspace.empty)
  let second := first.bind fun r => Pool.play (steadySys 0) steadyServer [0, 0] r.2
  have hfirst : (first.map fun r => r.1.any (RedisPool.answers RedisOp.isSadd)) = some false := by decide +kernel
  have hsecond : (second.map fun r =>
    (r.1.any (RedisPool.answers RedisOp.isRemoval), (show Option Int from (r.2.threads 0).returned),
      (show Option Int from (r.2.threads 1).returned), readSession L r.2.shared (sessionKey "dbsc" "a"))) =
      some (false, some 0, some 0, some (plainSession "a" "u")) := by
    decide +kernel
  obtain ⟨⟨h₁, P₁⟩, hplay₁, hnosadd⟩ := Option.map_eq_some_iff.mp hfirst
  obtain ⟨⟨h₂, P₂⟩, hplay₂, hresult⟩ := Option.map_eq_some_iff.mp hsecond
  have hplay₂ : Pool.play (steadySys 0) steadyServer [0, 0] P₁ = some (h₂, P₂) := by
    rwa [show second = first.bind _ from rfl, hplay₁, Option.bind_some] at hplay₂
  obtain ⟨hnoremove, hresult⟩ := Prod.ext_iff.mp hresult
  obtain ⟨hcreated, hresult⟩ := Prod.ext_iff.mp hresult
  obtain ⟨hdeleted, hread⟩ := Prod.ext_iff.mp hresult
  have hrun : ServerRun L "dbsc" 1 (h₁ ++ h₂) P₂ :=
    (Pool.run_play steadyServer_server hplay₁).append (Pool.run_play steadyServer_server hplay₂)
  have hmemory : MemorySuffices (h₁ ++ h₂) := by
    intro i hi
    rw [Pool.eventsOf_append]
    exact within_append.mpr ⟨memorySuffices_play hplay₁ i hi, memorySuffices_play hplay₂ i hi⟩
  have hquiet : ∀ i, Pool.eventsOf i (h₁ ++ h₂) = [] ∨ ∃ a, P₂.threads i = .ret a :=
    Fin.forall_fin_two.mpr ⟨.inr ⟨_, returned_eq_some hcreated⟩, .inr ⟨_, returned_eq_some hdeleted⟩⟩
  -- nothing is removed in the second part, and nothing added in the first
  have hno : ∀ g t g', h₁ ++ h₂ = g ++ t :: g' → RedisPool.answers RedisOp.isRemoval t = true →
      ∀ ta ∈ g, RedisPool.answers RedisOp.isSadd ta = true → False := by
    intro g t g' hg ht ta hta hadd
    rcases List.append_eq_append_iff.mp hg with ⟨g₀, rfl, hg₂⟩ | ⟨g₀, rfl, hg₂⟩
    · exact List.any_eq_false.mp hnoremove t (hg₂ ▸ List.mem_append_right _ List.mem_cons_self) ht
    · exact List.any_eq_false.mp hnosadd ta (List.mem_append_left _ hta) hadd
  have hkeep : Throughout (KeepsAdded "dbsc") (h₁ ++ h₂) := by
    intro g t g' hg
    refine ⟨fun j ukey r hdel id hadded => ?_, fun j ukey id r hsrem hadded => ?_⟩
    · obtain ⟨i, s, _, _, _, -, -, -, -, g₁, tj, g₂, hsplit, -, ta, hta, r', hadd⟩ := hadded
      exact hno g t g' hg (hdel.answers RedisOp.isRemoval) ta
        (hsplit ▸ List.mem_append_right _ (List.mem_cons_of_mem _ hta))
        (hadd.answers RedisOp.isSadd)
    · obtain ⟨i, s, _, _, _, -, -, -, -, g₁, tj, g₂, hsplit, -, ta, hta, r', hadd⟩ := hadded
      exact hno g t g' hg (hsrem.answers RedisOp.isRemoval) ta
        (hsplit ▸ List.mem_append_right _ (List.mem_cons_of_mem _ hta))
        (hadd.answers RedisOp.isSadd)
  exact ⟨L, _, P₂, hrun, returned_eq_some hcreated, returned_eq_some hdeleted, hread,
    redis_index_kept hrun readsBack_createDuringBulkDelete hmemory hkeep hquiet "a" _ hread⟩

end OpenDbsc
