/-
When the Redis store's calls return.

A lookup that finds a session past its expiry deletes it through
`redis_delete`, which begins with the same lookup. So a call returns exactly
if no key it looks at holds an expired session that the server has not dropped
yet (`redis_finishes_iff`).
-/
import OpenDbsc.RedisSpec

namespace OpenDbsc

open Effects Prog

/-- With enough stack, `p` returns after finitely many commands, whatever
allocations or commands fail and whatever the clock reads up to `now`. -/
def Finishes {α : Type} (now : Int) (ks : Keyspace) (p : Nat → RedisProg α) : Prop :=
  ∃ frames, Total (ClockBy now) redisConnection (p frames) (fun _ _ => True) ks

/-- None of the keys a call looks at holds an expired session. A bulk
deletion also looks at the ids written in the sessions it finds. -/
def LooksAtLive (L : Extern) (keyPrefix : CStr) (ks : Keyspace) (now : Int) : StoreOp → Prop
  | .create _ => True
  | .get id => ∀ i, id = some i → ¬ HoldsExpired L ks now (sessionKey keyPrefix i)
  | .update s => ∀ i, s.id = some i → ¬ HoldsExpired L ks now (sessionKey keyPrefix i)
  | .delete id => ∀ i, id = some i → ¬ HoldsExpired L ks now (sessionKey keyPrefix i)
  | .getByUserId none => True
  | .getByUserId (some u) => ∀ i ∈ ks.members (userKey keyPrefix (some u)),
      ¬ HoldsExpired L ks now (sessionKey keyPrefix i)
  | .deleteByUserId none => True
  | .deleteByUserId (some u) =>
      (∀ i ∈ ks.members (userKey keyPrefix (some u)), ¬ HoldsExpired L ks now (sessionKey keyPrefix i)) ∧
      ∀ s ∈ sessionsAt L keyPrefix ks (ks.members (userKey keyPrefix (some u))), ∀ i, s.id = some i →
        ¬ HoldsExpired L ks now (sessionKey keyPrefix i)

section

variable {L : Extern} {keyPrefix : CStr} {now : Int} {ks : Keyspace}

/-! ## Calls that return -/

/-- Each session is as it was or gone. -/
def Fewer (keyPrefix : CStr) (ks ks' : Keyspace) : Prop :=
  ∀ id, ks' (sessionKey keyPrefix id) = ks (sessionKey keyPrefix id) ∨ ks' (sessionKey keyPrefix id) = none

theorem Fewer.refl (ks : Keyspace) : Fewer keyPrefix ks ks := fun _ => .inl rfl

theorem Fewer.trans {ks₁ ks₂ ks₃ : Keyspace} (h : Fewer keyPrefix ks₁ ks₂) (h' : Fewer keyPrefix ks₂ ks₃) :
    Fewer keyPrefix ks₁ ks₃ := by
  intro id
  rcases h' id with heq | hnone
  · rw [heq]
    exact h id
  · exact .inr hnone

theorem Fewer.live {ks' : Keyspace} {id : CStr} (h : Fewer keyPrefix ks ks')
    (hlive : ¬ HoldsExpired L ks now (sessionKey keyPrefix id)) :
    ¬ HoldsExpired L ks' now (sessionKey keyPrefix id) := by
  intro hexp
  obtain ⟨s, hread, hs⟩ := hexp
  rcases h id with heq | hnone
  · exact hlive ⟨s, by rw [← readSession_congr heq, hread], hs⟩
  · rw [readSession_none hnone] at hread
    cases hread

theorem fewer_del (keyPrefix : CStr) (ks : Keyspace) (key : CStr) :
    Fewer keyPrefix ks (Function.update ks key none) := by
  intro id
  by_cases h : sessionKey keyPrefix id = key
  · exact .inr (h ▸ Function.update_self _ _ _)
  · exact .inl (Function.update_of_ne h _ _)

theorem fewer_srem (keyPrefix : CStr) (ks : Keyspace) (userId : Option CStr) (member : CStr) :
    Fewer keyPrefix ks (ks.srem (userKey keyPrefix userId) member).2 :=
  fun id => .inl (Keyspace.srem_other ks member (sessionKey_ne_userKey keyPrefix id userId))

/-- A command that only takes away, whatever comes of it. -/
theorem total_fewer {o : RedisOp} (h : Fewer keyPrefix ks (ks.answer o).2) :
    Total (ClockBy now) redisConnection (redisCommand o) (fun _ ks' => Fewer keyPrefix ks ks') ks :=
  total_connection.mpr ⟨fun _ _ => h, .refl ks, h⟩

theorem returns_redisKey {key : CStr} {Q : Option CStr → Prop} (hnone : Q none) (hsome : Q (some key)) :
    Returns (ClockBy now) (redisKey key) Q := by
  unfold redisKey
  rw [returns_bind, returns_malloc]
  intro b
  cases b with
  | false => exact hnone
  | true => exact hsome

theorem returns_userKeyOf {s : Option Session} {Q : Option CStr → Prop} (hnone : Q none)
    (hsome : ∀ userId, Q (some (userKey keyPrefix userId))) : Returns (ClockBy now) (userKeyOf keyPrefix s) Q := by
  cases s with
  | none => exact hnone
  | some s => exact returns_redisKey hnone (hsome s.userId)

/-- What is found is the session stored there. -/
def Finds (L : Extern) (keyPrefix : CStr) (ks : Keyspace) (id : CStr) (out : Option Session) : Prop :=
  ∀ s, out = some s → ∃ d, readSession L ks (sessionKey keyPrefix id) = some d ∧ s.Resembles d

theorem Finds.none {id : CStr} : Finds L keyPrefix ks id none := fun _ h => nomatch h

theorem redisGetText_returns {delete : RedisProg Int} {json id : CStr}
    (hjson : ks.get (sessionKey keyPrefix id) = .string json)
    (hlive : ¬ HoldsExpired L ks now (sessionKey keyPrefix id)) :
    Total (ClockBy now) redisConnection (redisGetText L delete json)
      (fun out ks' => ks' = ks ∧ Finds L keyPrefix ks id out) ks := by
  unfold redisGetText
  rw [total_bind, total_lift, returns_malloc]
  intro b
  cases b with
  | false => exact ⟨rfl, .none⟩
  | true =>
    simp only [Bool.not_true, Bool.false_eq_true, if_false]
    rw [total_bind, total_lift]
    refine (returns_sessionFromJson L json sessionInit).mono fun ⟨rc, s⟩ hs => ?_
    by_cases hrc : rc = 0
    · obtain ⟨d, hd, hsd⟩ := hs hrc
      have hread : readSession L ks (sessionKey keyPrefix id) = some d := by
        unfold readSession
        rw [hjson]
        exact hd
      have hfresh : s.expiredAt now = false := by
        rw [hsd.expiredAt, ← Bool.not_eq_true]
        exact fun hexp => hlive ⟨d, hread, hexp⟩
      simp only [hrc, ne_eq, not_true, if_false]
      rw [total_bind, total_lift, returns_isExpired_live clockBy_time hfresh]
      refine ⟨rfl, fun s' h => ?_⟩
      cases h
      exact ⟨d, hread, hsd⟩
    · simp only [ne_eq, hrc, not_false_eq_true, if_true]
      exact ⟨rfl, .none⟩

theorem redisGet_returns {id : CStr} (hlive : ¬ HoldsExpired L ks now (sessionKey keyPrefix id)) (frames : Nat) :
    Total (ClockBy now) redisConnection (redisGet L keyPrefix (frames + 1) id)
      (fun out ks' => ks' = ks ∧ Finds L keyPrefix ks id out) ks := by
  rw [redisGet, total_bind, total_lift]
  refine returns_redisKey ⟨rfl, .none⟩ ?_
  simp only [total_bind]
  rw [total_connection]
  refine ⟨fun r hr => ?_, ⟨rfl, .none⟩, ⟨rfl, .none⟩⟩
  rw [(RedisReply.reorders_iff (ks.get_ne_array _)).mp hr]
  cases hget : ks.get (sessionKey keyPrefix id) with
  | string json => exact redisGetText_returns hget hlive
  | _ => exact ⟨rfl, .none⟩

theorem redisRemove_returns (ks : Keyspace) (id : CStr) {ukey : Option CStr}
    (hukey : ∀ key, ukey = some key → ∃ userId, key = userKey keyPrefix userId) :
    Total (ClockBy now) redisConnection (redisRemove keyPrefix id ukey) (fun _ ks' => Fewer keyPrefix ks ks') ks := by
  unfold redisRemove
  rw [total_bind, total_lift]
  refine returns_redisKey (.refl ks) ?_
  simp only [total_bind]
  refine (total_fewer (fewer_del keyPrefix ks (sessionKey keyPrefix id))).mono fun _ ks₁ h₁ => ?_
  cases ukey with
  | none => exact h₁
  | some key =>
    obtain ⟨userId, rfl⟩ := hukey key rfl
    show Total _ _ (redisCommand (.srem (userKey keyPrefix userId) id) >>= fun _ => pure 0) _ _
    rw [total_bind]
    exact (total_fewer (fewer_srem keyPrefix ks₁ userId id)).mono fun _ ks₂ h₂ => h₁.trans h₂

theorem redisDelete_returns {id : CStr} (hlive : ¬ HoldsExpired L ks now (sessionKey keyPrefix id)) (frames : Nat) :
    Total (ClockBy now) redisConnection (redisDelete L keyPrefix (frames + 1) id)
      (fun _ ks' => Fewer keyPrefix ks ks') ks := by
  rw [redisDelete, redisDeleteWith, total_bind]
  refine (redisGet_returns hlive frames).mono fun s ks' hout => ?_
  obtain ⟨rfl, -⟩ := hout
  rw [total_bind, total_lift]
  refine returns_userKeyOf (redisRemove_returns _ id fun _ h => by cases h) fun userId => ?_
  exact redisRemove_returns _ id fun key h => ⟨userId, (Option.some.inj h).symm⟩

/-! ### Storing -/

theorem answerable_libraryAlloc : libraryAlloc.Answerable := answerable_perform (S := Sys) (o := .library) ⟨true⟩

theorem answerable_cJsonAlloc {α : Type} (x : α) : (cJsonAlloc x).Answerable := by
  refine answerable_libraryAlloc.bind fun b => ?_
  cases b <;> exact answerable_pure _

theorem answerable_addField (fields : JsonFields) (key : CStr) (value : Json) :
    (addField fields key value).Answerable := by
  refine (answerable_cJsonAlloc _).bind fun out => ?_
  cases out <;> exact answerable_pure _

theorem answerable_addStringField (fields : JsonFields) (key : CStr) (value : Option CStr) :
    (addStringField fields key value).Answerable := by
  cases value with
  | none => exact answerable_pure fields
  | some value => exact answerable_addField ..

theorem answerable_addPublicKey (L : Extern) (fields : JsonFields) (publicKey : Option CStr) :
    (addPublicKey L fields publicKey).Answerable := by
  cases publicKey with
  | none => exact answerable_pure fields
  | some publicKey =>
    have hparse : (cJsonParse L publicKey).Answerable := by
      refine answerable_libraryAlloc.bind fun b => ?_
      cases b <;> exact answerable_pure _
    refine hparse.bind fun jwk => ?_
    cases jwk <;> exact answerable_addField ..

theorem answerable_addExpiresAt (fields : JsonFields) (s : Session) : (addExpiresAt fields s).Answerable := by
  unfold addExpiresAt
  split
  · exact answerable_addField ..
  · exact answerable_pure fields

theorem answerable_sessionToJson (L : Extern) (s : Session) : (sessionToJson L s).Answerable := by
  refine (answerable_cJsonAlloc _).bind fun fields => ?_
  cases fields with
  | none => exact answerable_pure none
  | some fields =>
    refine (answerable_addStringField ..).bind fun _ => (answerable_addStringField ..).bind fun _ => ?_
    refine (answerable_addField ..).bind fun _ => (answerable_addPublicKey ..).bind fun _ => ?_
    refine (answerable_addStringField ..).bind fun _ => (answerable_addStringField ..).bind fun _ => ?_
    exact (answerable_addExpiresAt ..).bind fun _ => (answerable_addField ..).bind fun _ => answerable_cJsonAlloc _

theorem answerable_redisTtl (s : Session) : (redisTtl s).Answerable := by
  unfold redisTtl
  split
  · exact (answerable_perform (S := Sys) (o := .time) ⟨0⟩).bind fun _ => answerable_pure _
  · exact answerable_pure none

/-- Such an environment answers everything that has an answer. -/
theorem clockBy_answers (now : Int) (o : Sys.Op) (h : Nonempty (Sys.Ans o)) : ∃ x, ClockBy now ⟨o, x⟩ := by
  obtain ⟨x⟩ := h
  cases o with
  | time => exact ⟨now, clockBy_time.mpr (Int.le_refl now)⟩
  | _ => exact ⟨x, fun _ hr => nomatch hr⟩

theorem total_any {o : RedisOp} : Total (ClockBy now) redisConnection (redisCommand o) (fun _ _ => True) ks :=
  total_connection.mpr ⟨fun _ _ => trivial, trivial, trivial⟩

theorem redisWrite_returns (skey ukey id json : CStr) (ex : Option Int) :
    Total (ClockBy now) redisConnection (redisWrite skey ukey id json ex) (fun _ _ => True) ks := by
  rw [redisWrite, total_bind]
  refine total_any.mono fun reply ks₁ _ => ?_
  split
  · trivial
  · rw [total_bind]
    refine total_any.mono fun reply ks₂ _ => ?_
    split <;> trivial

theorem redisCreate_returns (s : Session) :
    Total (ClockBy now) redisConnection (redisCreate L keyPrefix s) (fun _ _ => True) ks := by
  unfold redisCreate
  cases s.id with
  | none => trivial
  | some id =>
    simp only [total_bind, total_lift]
    refine ((answerable_sessionToJson L s).returns (clockBy_answers now)).mono fun json _ => ?_
    cases json with
    | none => trivial
    | some json =>
      simp only [total_bind, total_lift]
      refine returns_redisKey (returns_redisKey trivial trivial) (returns_redisKey trivial ?_)
      simp only [total_bind, total_lift]
      exact ((answerable_redisTtl s).returns (clockBy_answers now)).mono fun ex _ => redisWrite_returns _ _ _ _ ex

theorem redisUpdate_returns {s : Session}
    (hlive : ∀ i, s.id = some i → ¬ HoldsExpired L ks now (sessionKey keyPrefix i))
    (frames : Nat) :
    Total (ClockBy now) redisConnection (redisUpdate L keyPrefix (frames + 1) s) (fun _ _ => True) ks := by
  unfold redisUpdate
  cases hid : s.id with
  | none => trivial
  | some id =>
    simp only [total_bind]
    refine (redisGet_returns (hlive id hid) frames).mono fun out ks' _ => ?_
    cases out with
    | none => trivial
    | some existing => exact redisCreate_returns s

/-! ### A user's sessions -/

/-- What the loop finds are sessions stored at the members' keys. -/
def FindsAmong (L : Extern) (keyPrefix : CStr) (ks : Keyspace) (ids : List CStr) (out : Option (List Session)) : Prop :=
  ∀ sessions, out = some sessions → ∀ s ∈ sessions, ∃ d ∈ sessionsAt L keyPrefix ks ids, s.Resembles d

theorem redisCollect_returns {ids : List CStr}
    (hlive : ∀ i ∈ ids, ¬ HoldsExpired L ks now (sessionKey keyPrefix i)) (frames : Nat) {rest : List CStr}
    (hrest : ∀ i ∈ rest, i ∈ ids) {found : List Session}
    (hfound : ∀ s ∈ found, ∃ d ∈ sessionsAt L keyPrefix ks ids, s.Resembles d) :
    Total (ClockBy now) redisConnection (redisCollect (redisGet L keyPrefix (frames + 1)) (rest.map .string) found)
      (fun out ks' => ks' = ks ∧ FindsAmong L keyPrefix ks ids out) ks := by
  induction rest generalizing found with
  | nil =>
    refine ⟨rfl, fun sessions h => ?_⟩
    cases h
    exact hfound
  | cons i rest ih =>
    have hi := hrest i List.mem_cons_self
    have ih := @ih fun j hj => hrest j (List.mem_cons_of_mem _ hj)
    rw [List.map_cons, redisCollect, total_bind]
    refine (redisGet_returns (hlive i hi) frames).mono fun out ks' hout => ?_
    obtain ⟨hks, hfinds⟩ := hout
    subst hks
    cases out with
    | none => exact ih hfound
    | some s =>
      simp only [total_bind, total_lift, returns_malloc]
      intro b
      cases b with
      | false => exact ⟨rfl, fun _ h => by cases h⟩
      | true =>
        refine ih fun s' hs' => ?_
        rcases List.mem_append.mp hs' with hs' | hs'
        · exact hfound s' hs'
        · obtain ⟨d, hread, hsd⟩ := hfinds s rfl
          rw [List.mem_singleton.mp hs']
          exact ⟨d, List.mem_filterMap.mpr ⟨i, hi, hread⟩, hsd⟩

theorem redisGetByUserId_returns {userId : CStr}
    (hlive : ∀ i ∈ ks.members (userKey keyPrefix (some userId)), ¬ HoldsExpired L ks now (sessionKey keyPrefix i))
    (frames : Nat) : Total (ClockBy now) redisConnection (redisGetByUserId L keyPrefix (frames + 1) userId)
      (fun out ks' => ks' = ks ∧
        FindsAmong L keyPrefix ks (ks.members (userKey keyPrefix (some userId))) out) ks := by
  have hnone : FindsAmong L keyPrefix ks (ks.members (userKey keyPrefix (some userId))) none := fun _ h => nomatch h
  rw [redisGetByUserId, total_bind, total_lift]
  refine returns_redisKey ⟨rfl, hnone⟩ ?_
  simp only [total_bind]
  rw [total_connection]
  refine ⟨fun r hr => ?_, ⟨rfl, hnone⟩, ⟨rfl, hnone⟩⟩
  by_cases hset : ks.IsSet (userKey keyPrefix (some userId))
  · simp only [Keyspace.answer, Keyspace.smembers_eq hset, RedisReply.reorders_array, perm_string] at hr
    obtain ⟨_, ⟨ids, hperm, rfl⟩, rfl⟩ := hr
    exact redisCollect_returns hlive frames (fun i hi => hperm.mem_iff.mpr hi) fun s hs => (List.not_mem_nil hs).elim
  · simp only [Keyspace.answer, (Keyspace.smembers_error hset).1] at hr
    cases hr
    exact ⟨rfl, hnone⟩

theorem redisDeleteEach_returns {sessions : List Session}
    (hlive : ∀ s ∈ sessions, ∀ i, s.id = some i → ¬ HoldsExpired L ks now (sessionKey keyPrefix i)) (frames : Nat) :
    Total (ClockBy now) redisConnection (redisDeleteEach (redisDelete L keyPrefix (frames + 1)) sessions)
      (fun _ _ => True) ks := by
  induction sessions generalizing ks with
  | nil => trivial
  | cons s rest ih =>
    have hrest := fun s' (h : s' ∈ rest) => hlive s' (List.mem_cons_of_mem _ h)
    rw [redisDeleteEach]
    cases hid : s.id with
    | none => exact ih hrest
    | some id =>
      simp only [total_bind]
      refine (redisDelete_returns (hlive s List.mem_cons_self id hid) frames).mono fun _ ks' hfewer => ?_
      exact ih fun s' hs' i hi => hfewer.live (hrest s' hs' i hi)

theorem redisDeleteByUserId_returns {userId : CStr}
    (hlive : LooksAtLive L keyPrefix ks now (.deleteByUserId (some userId))) (frames : Nat) :
    Total (ClockBy now) redisConnection (redisDeleteByUserId L keyPrefix (frames + 1) userId) (fun _ _ => True) ks := by
  obtain ⟨hmembers, hown⟩ := hlive
  rw [redisDeleteByUserId, total_bind]
  refine (redisGetByUserId_returns hmembers frames).mono fun out ks' ⟨hks, hfinds⟩ => ?_
  subst hks
  cases out with
  | none => trivial
  | some sessions =>
    have hlive : ∀ s ∈ sessions, ∀ i, s.id = some i → ¬ HoldsExpired L ks' now (sessionKey keyPrefix i) := by
      intro s hs i hi
      obtain ⟨d, hd, hid, -⟩ := hfinds sessions rfl s hs
      rcases hid with hnone | hid
      · rw [hnone] at hi
        cases hi
      · exact hown d hd i (hid ▸ hi)
    simp only [total_bind]
    refine (redisDeleteEach_returns hlive frames).mono fun _ ks₁ _ => ?_
    rw [total_lift]
    refine returns_redisKey trivial ?_
    simp only [total_bind]
    exact total_any

/-! ## Exactly these -/

/-- What is sure over a connection that may fail is sure when nothing fails. -/
theorem total_unfailing {α : Type} {p : RedisProg α} {Q : α → Keyspace → Prop}
    (h : Total (ClockBy now) redisConnection p Q ks) : Total (Steady now) redisServer p Q ks :=
  total_steady (h.component fun _ _ _ _ _ hserve => .inl hserve)

theorem LooksAtLive.finishes {o : StoreOp} (h : LooksAtLive L keyPrefix ks now o) :
    Finishes now ks fun frames => redisStore L keyPrefix frames o := by
  refine ⟨1, ?_⟩
  cases o with
  | create s => exact redisCreate_returns s
  | get id =>
    cases id with
    | none => trivial
    | some i => exact (redisGet_returns (h i rfl) 0).mono fun _ _ _ => trivial
  | update s => exact redisUpdate_returns h 0
  | delete id =>
    cases id with
    | none => trivial
    | some i => exact (redisDelete_returns (h i rfl) 0).mono fun _ _ _ => trivial
  | getByUserId userId =>
    cases userId with
    | none => trivial
    | some u => exact (redisGetByUserId_returns h 0).mono fun _ _ _ => trivial
  | deleteByUserId userId =>
    cases userId with
    | none => trivial
    | some u => exact redisDeleteByUserId_returns h 0

/-- The members of a user's set are looked at before anything else. -/
theorem members_live {frames : Nat} {userId : CStr} {Q : Option (List Session) → Keyspace → Prop}
    (h : Total (Steady now) redisServer (redisGetByUserId L keyPrefix frames userId) Q ks) :
    ∀ i ∈ ks.members (userKey keyPrefix (some userId)), ¬ HoldsExpired L ks now (sessionKey keyPrefix i) := by
  by_cases hset : ks.IsSet (userKey keyPrefix (some userId))
  · exact redisCollect_live ((total_redisGetByUserId hset).mp h _ (.refl _))
  · rw [(Keyspace.smembers_error hset).2]
    exact fun i hi => (List.not_mem_nil hi).elim

theorem Finishes.looksAtLive {o : StoreOp} (h : Finishes now ks fun frames => redisStore L keyPrefix frames o) :
    LooksAtLive L keyPrefix ks now o := by
  obtain ⟨frames, h⟩ := h
  have h := total_unfailing h
  cases o with
  | create s => trivial
  | get id =>
    rintro i rfl hexp
    exact redisGet_diverges hexp frames _ h
  | update s =>
    intro i hi hexp
    simp only [redisStore, redisUpdate, hi, total_bind] at h
    exact redisGet_diverges hexp frames _ h
  | delete id =>
    rintro i rfl hexp
    exact redisDelete_diverges hexp frames _ h
  | getByUserId userId =>
    cases userId with
    | none => trivial
    | some u => exact members_live h
  | deleteByUserId userId =>
    cases userId with
    | none => trivial
    | some u =>
      have h : Total _ _ (redisDeleteByUserId L keyPrefix frames u) _ _ := h
      rw [redisDeleteByUserId, total_bind] at h
      have hmembers := members_live h
      refine ⟨hmembers, ?_⟩
      by_cases hset : ks.IsSet (userKey keyPrefix (some u))
      · have h := (total_redisGetByUserId hset).mp h _ (.refl _)
        cases frames with
        | zero =>
          cases hids : ks.members (userKey keyPrefix (some u)) with
          | nil => exact fun s hs => (List.not_mem_nil hs).elim
          | cons i rest =>
            rw [hids, List.map_cons, redisCollect, total_bind] at h
            exact absurd h (redisGet_zero L keyPrefix i ks _)
        | succ frames =>
          rw [total_redisCollect hmembers] at h
          simp only [total_bind, List.nil_append] at h
          exact redisDeleteEach_live h
      · rw [(Keyspace.smembers_error hset).2]
        exact fun s hs => (List.not_mem_nil hs).elim

/-- **When the Redis store's calls return.** -/
theorem redis_finishes_iff (L : Extern) (keyPrefix : CStr) (ks : Keyspace) (now : Int) (o : StoreOp) :
    (Finishes now ks fun frames => redisStore L keyPrefix frames o) ↔ LooksAtLive L keyPrefix ks now o :=
  ⟨Finishes.looksAtLive, LooksAtLive.finishes⟩

end

/-- A session created at 5 with that expiry, and not dropped by 6: its key's time to live is at least a second. -/
theorem redis_expired_diverges : ∃ (L : Extern) (s : Session) (ks : Keyspace),
    Total (Steady 5) redisServer (redisCreate L "dbsc" s) (fun rc ks' => rc = 0 ∧ ks' = ks) Keyspace.empty ∧
    ∀ o ∈ [StoreOp.get s.id, .delete s.id, .update s, .getByUserId s.userId, .deleteByUserId s.userId],
      ¬ Finishes 6 ks fun frames => redisStore L "dbsc" frames o := by
  let fields : JsonFields := [("id", .str "a"), ("user_id", .str "u"), ("state", .str "active"),
    ("expires_at", .num (doubleOfTime 5)), ("created_at", .num (doubleOfTime 0))]
  let L := Extern.knowing [.obj fields] fun _ _ => false
  let s : Session :=
    { sessionInit with id := some "a".toList, userId := some "u".toList, expiresAt := 5, hasExpires := true }
  have hcreate : Total (Steady 5) redisServer (redisCreate L "dbsc" s)
      (fun rc ks' => rc = 0 ∧ ks' = Keyspace.empty.write L "dbsc" "a" s) Keyspace.empty :=
    (total_redisCreate rfl (Keyspace.empty_isSet _)).mpr ⟨rfl, rfl⟩
  have hread : readSession L (Keyspace.empty.write L "dbsc" "a" s) (sessionKey "dbsc" "a") = some s := by
    have hparse : L.parse (L.printUnformatted (.obj (sessionFields L s))) = some (.obj fields) :=
      knowing_parse [] fun _ h => (List.not_mem_nil h).elim
    rw [readSession_write, if_pos rfl, Session.recoded, storedSession, hparse]
    decide +kernel
  have hexp : HoldsExpired L (Keyspace.empty.write L "dbsc" "a" s) 6 (sessionKey "dbsc" "a") :=
    ⟨s, hread, by decide⟩
  have hmember : ("a" : CStr) ∈ (Keyspace.empty.write L "dbsc" "a" s).members (userKey "dbsc" s.userId) := by
    rw [Keyspace.members_write (Keyspace.empty_isSet _)]
    exact List.mem_singleton.mpr rfl
  refine ⟨L, s, _, hcreate, fun o ho hfin => ?_⟩
  have hlive := hfin.looksAtLive
  simp only [List.mem_cons, List.not_mem_nil, or_false] at ho
  rcases ho with rfl | rfl | rfl | rfl | rfl
  · exact hlive _ rfl hexp
  · exact hlive _ rfl hexp
  · exact hlive _ rfl hexp
  · exact hlive _ hmember hexp
  · exact hlive.1 _ hmember hexp

end OpenDbsc
