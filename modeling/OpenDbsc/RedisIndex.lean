/-
The sets of a user's sessions, over runs of the Redis store.

Calls follow one another and nothing fails; between them the server may drop
keys whose time to live is over. As long as no id is written for a second user
while the first user's set still has it, a listing gives the user's sessions
and a bulk deletion deletes them, and no others (`redis_index_exact`).
Otherwise the first user is given the second one's session
(`redis_index_stale`).
-/
import OpenDbsc.RedisTermination

namespace OpenDbsc

open Effects Prog

/-! ## Runs -/

/-- A call with its answer, while the clock is at `now` at the latest. -/
structure RedisCall where
  now : Int
  op : StoreOp
  ans : op.Ans

/-- No id or user is null. -/
def StoreOp.NonNull : StoreOp → Prop
  | .create s => s.id ≠ none ∧ s.userId ≠ none
  | .get id => id ≠ none
  | .update s => s.id ≠ none ∧ s.userId ≠ none
  | .delete id => id ≠ none
  | .getByUserId userId => userId ≠ none
  | .deleteByUserId userId => userId ≠ none

/-- The session an operation stores. -/
def StoreOp.written : StoreOp → Option Session
  | .create s => some s
  | .update s => some s
  | _ => none

/-- A call in which nothing fails, or the server dropping a key (no label). -/
inductive RedisStep (L : Extern) (keyPrefix : CStr) (ks : Keyspace) : Option RedisCall → Keyspace → Prop
  | call {frames : Nat} {c : RedisCall} {tr ks'} (hop : c.op.NonNull)
      (hex : Exec redisServer (redisStore L keyPrefix (frames + 1) c.op) ks tr c.ans ks')
      (hwithin : Within (Steady c.now) tr) : RedisStep L keyPrefix ks (some c) ks'
  | eviction {ks' : Keyspace} (h : ks.Evicts ks') : RedisStep L keyPrefix ks none ks'

abbrev RedisHistory := List (Transition Keyspace (Option RedisCall))

/-- A session of the user that can be read at its key and has not run out. -/
def SessionOf (L : Extern) (keyPrefix : CStr) (ks : Keyspace) (now : Int) (user : CStr) (s : Session) : Prop :=
  s.userId = some user ∧ s.expiredAt now = false ∧ ∃ id, readSession L ks (sessionKey keyPrefix id) = some s

/-- A listing gives each of the user's sessions once, and no other. -/
def ListsExactly (L : Extern) (keyPrefix : CStr) (t : Transition Keyspace (Option RedisCall)) : Prop :=
  ∀ now user out, t.label = some ⟨now, .getByUserId (some user), out⟩ →
    ∃ found : List Session, out = some found ∧ (found.map (·.id)).Nodup ∧
      ∀ s, s ∈ found ↔ SessionOf L keyPrefix t.pre now user s

/-- A bulk deletion deletes each of the user's sessions, and no other. -/
def DeletesExactly (L : Extern) (keyPrefix : CStr) (t : Transition Keyspace (Option RedisCall)) : Prop :=
  ∀ now user rc, t.label = some ⟨now, .deleteByUserId (some user), rc⟩ → rc = 0 ∧
    ∀ id s, readSession L t.post (sessionKey keyPrefix id) = some s ↔
      readSession L t.pre (sessionKey keyPrefix id) = some s ∧ ¬ SessionOf L keyPrefix t.pre now user s

/-- An id is not stored for a user while another's set has it. -/
def KeepsUser (keyPrefix : CStr) (t : Transition Keyspace (Option RedisCall)) : Prop :=
  ∀ c s id, t.label = some c → c.op.written = some s → s.id = some id →
    ∀ user, id ∈ t.pre.members (userKey keyPrefix (some user)) → s.userId = some user

/-- None of the keys the call looks at holds an expired session. -/
def MeetsLive (L : Extern) (keyPrefix : CStr) (t : Transition Keyspace (Option RedisCall)) : Prop :=
  ∀ c, t.label = some c → LooksAtLive L keyPrefix t.pre c.now c.op

/-- cJSON reads back the session that is stored. -/
def WritesReadBack (L : Extern) (t : Transition Keyspace (Option RedisCall)) : Prop :=
  ∀ c s, t.label = some c → c.op.written = some s → ReadsBack L s

/-! ## The invariant -/

/-- What is at a user's key is a set, without a time to live. -/
def PlainSets (keyPrefix : CStr) (ks : Keyspace) : Prop :=
  ∀ userId entry, ks (userKey keyPrefix userId) = some entry → ∃ members, entry = ⟨.set members, false⟩

/-- The sets and the sessions agree. -/
structure Indexed (L : Extern) (keyPrefix : CStr) (ks : Keyspace) : Prop where
  sets : PlainSets keyPrefix ks
  nodup : ∀ userId, (ks.members (userKey keyPrefix userId)).Nodup
  listed : ∀ {id s}, readSession L ks (sessionKey keyPrefix id) = some s →
    s.id = some id ∧ ∃ user, s.userId = some user ∧ id ∈ ks.members (userKey keyPrefix (some user))
  owner : ∀ {id s user}, id ∈ ks.members (userKey keyPrefix (some user)) →
    readSession L ks (sessionKey keyPrefix id) = some s → s.userId = some user

section

variable {L : Extern} {keyPrefix : CStr} {ks : Keyspace} {now : Int}

theorem PlainSets.sadd (h : PlainSets keyPrefix ks) (userId : Option CStr) (member : CStr) :
    PlainSets keyPrefix (ks.sadd (userKey keyPrefix userId) member).2 := by
  intro userId' entry hentry
  by_cases hkey : userKey keyPrefix userId' = userKey keyPrefix userId
  · rw [hkey] at hentry
    unfold Keyspace.sadd at hentry
    cases hold : ks (userKey keyPrefix userId) with
    | none =>
      simp only [hold, Function.update_self, Option.some.injEq] at hentry
      exact ⟨_, hentry.symm⟩
    | some old =>
      obtain ⟨members, rfl⟩ := h userId old hold
      simp only [hold, Function.update_self, Option.some.injEq] at hentry
      exact ⟨_, hentry.symm⟩
  · rw [Keyspace.sadd_other _ _ hkey] at hentry
    exact h userId' entry hentry

theorem PlainSets.srem (h : PlainSets keyPrefix ks) (userId : Option CStr) (member : CStr) :
    PlainSets keyPrefix (ks.srem (userKey keyPrefix userId) member).2 := by
  intro userId' entry hentry
  by_cases hkey : userKey keyPrefix userId' = userKey keyPrefix userId
  · rw [hkey] at hentry
    unfold Keyspace.srem at hentry
    cases hold : ks (userKey keyPrefix userId) with
    | none =>
      simp only [hold] at hentry
      cases hentry
    | some old =>
      obtain ⟨members, rfl⟩ := h userId old hold
      simp only [hold, Function.update_self] at hentry
      split at hentry
      · cases hentry
      · exact ⟨_, (Option.some.inj hentry).symm⟩
  · rw [Keyspace.srem_other _ _ hkey] at hentry
    exact h userId' entry hentry

theorem PlainSets.update {key : CStr} {entry : Option RedisEntry} (h : PlainSets keyPrefix ks)
    (hkey : entry = none ∨ ∀ userId, userKey keyPrefix userId ≠ key) :
    PlainSets keyPrefix (Function.update ks key entry) := by
  intro userId e he
  by_cases heq : userKey keyPrefix userId = key
  · rcases hkey with rfl | hne
    · rw [heq, Function.update_self] at he
      cases he
    · exact absurd heq (hne userId)
  · rw [Function.update_of_ne heq] at he
    exact h userId e he

theorem PlainSets.write (h : PlainSets keyPrefix ks) (L : Extern) (id : CStr) (s : Session) :
    PlainSets keyPrefix (ks.write L keyPrefix id s) := by
  have hne : ∀ userId, userKey keyPrefix userId ≠ sessionKey keyPrefix id :=
    fun userId => (sessionKey_ne_userKey keyPrefix id userId).symm
  exact (h.update (.inr hne)).sadd s.userId id

theorem PlainSets.isSet (h : PlainSets keyPrefix ks) (userId : Option CStr) : ks.IsSet (userKey keyPrefix userId) := by
  intro entry hentry
  obtain ⟨members, rfl⟩ := h userId entry hentry
  exact ⟨members, rfl⟩

theorem Indexed.empty : Indexed L keyPrefix Keyspace.empty where
  sets _ _ h := by cases h
  nodup _ := List.nodup_nil
  listed h := by
    rw [readSession_none rfl] at h
    cases h
  owner h := (List.not_mem_nil h).elim

/-- A key with a time to live is not a user's. -/
theorem Indexed.evict (hI : Indexed L keyPrefix ks) {ks' : Keyspace} (h : ks.Evicts ks') : Indexed L keyPrefix ks' := by
  obtain ⟨hkey⟩ := h
  rename_i key value
  have huser : ∀ userId, userKey keyPrefix userId ≠ key := by
    rintro userId rfl
    obtain ⟨members, hentry⟩ := hI.sets userId _ hkey
    cases hentry
  have hmembers : ∀ userId, Keyspace.members (Function.update ks key none) (userKey keyPrefix userId) =
      ks.members (userKey keyPrefix userId) :=
    fun userId => Keyspace.members_congr (Function.update_of_ne (huser userId) _ _)
  have hread : ∀ {id s}, readSession L (Function.update ks key none) (sessionKey keyPrefix id) = some s →
      readSession L ks (sessionKey keyPrefix id) = some s := by
    intro id s h
    by_cases hid : sessionKey keyPrefix id = key
    · rw [readSession_none (hid ▸ Function.update_self _ _ _)] at h
      cases h
    · rwa [readSession_congr (Function.update_of_ne hid _ _)] at h
  refine ⟨hI.sets.update (.inl rfl), fun userId => ?_, fun h => ?_, fun hmem h => ?_⟩
  · rw [hmembers]
    exact hI.nodup userId
  · simp only [hmembers]
    exact hI.listed (hread h)
  · rw [hmembers] at hmem
    exact hI.owner hmem (hread h)

theorem userKey_some_inj {user user' : CStr} :
    userKey keyPrefix (some user) = userKey keyPrefix (some user') ↔ user = user' :=
  userKey_inj

/-- Read back, a session keeps its id and user. -/
theorem recoded_core {s r : Session} (hjson : ReadsBack L s) (h : s.recoded L = some r) :
    r.id = s.id ∧ r.userId = s.userId := by
  unfold Session.recoded storedSession at h
  rw [hjson, Option.map_some, sessionOfJson_sessionFields] at h
  cases h
  exact ⟨rfl, rfl⟩

theorem members_write_other (id : CStr) (s : Session) {userId : Option CStr}
    (h : userKey keyPrefix userId ≠ userKey keyPrefix s.userId) :
    (ks.write L keyPrefix id s).members (userKey keyPrefix userId) = ks.members (userKey keyPrefix userId) := by
  refine Keyspace.members_congr ?_
  unfold Keyspace.write
  rw [Keyspace.sadd_other _ id h, Function.update_of_ne (sessionKey_ne_userKey keyPrefix id userId).symm]

/-- Storing a session for the one user whose set may have its id. -/
theorem Indexed.write (hI : Indexed L keyPrefix ks) {s : Session} {id user : CStr} (hid : s.id = some id)
    (huser : s.userId = some user) (hjson : ReadsBack L s)
    (hone : ∀ user', id ∈ ks.members (userKey keyPrefix (some user')) → s.userId = some user') :
    Indexed L keyPrefix (ks.write L keyPrefix id s) := by
  have hset := hI.sets.isSet s.userId
  have hkey : ∀ {userId}, userKey keyPrefix userId = userKey keyPrefix s.userId →
      (ks.write L keyPrefix id s).members (userKey keyPrefix userId) =
        if id ∈ ks.members (userKey keyPrefix s.userId) then ks.members (userKey keyPrefix s.userId)
        else ks.members (userKey keyPrefix s.userId) ++ [id] := by
    intro userId h
    rw [h]
    exact Keyspace.members_write hset id
  have hmem : ∀ {id' user'}, id' ∈ (ks.write L keyPrefix id s).members (userKey keyPrefix (some user')) ↔
      id' ∈ ks.members (userKey keyPrefix (some user')) ∨ id' = id ∧ user' = user := by
    intro id' user'
    by_cases h : user' = user
    · subst h
      rw [huser] at hkey
      rw [hkey rfl]
      split
      · rename_i hin
        exact ⟨.inl, fun h => h.elim (·) fun h => h.1 ▸ hin⟩
      · simp
    · rw [members_write_other id s (by rw [huser, ne_eq, userKey_some_inj]; exact h)]
      exact ⟨.inl, fun h' => h'.elim (·) fun h' => absurd h'.2 h⟩
  have hread : ∀ {id' r}, readSession L (ks.write L keyPrefix id s) (sessionKey keyPrefix id') = some r →
      id' = id ∧ r.id = some id ∧ r.userId = some user ∨ id' ≠ id ∧
        readSession L ks (sessionKey keyPrefix id') = some r := by
    intro id' r h
    rw [readSession_write] at h
    split at h
    · rename_i heq
      obtain ⟨hrid, hruser⟩ := recoded_core hjson h
      exact .inl ⟨heq, hrid.trans hid, hruser.trans huser⟩
    · rename_i hne
      exact .inr ⟨hne, h⟩
  refine ⟨?_, fun userId => ?_, fun h => ?_, fun hin h => ?_⟩
  · exact hI.sets.write L id s
  · by_cases h : userKey keyPrefix userId = userKey keyPrefix s.userId
    · rw [hkey h]
      split
      · exact hI.nodup s.userId
      · rename_i hnew
        exact List.nodup_append.mpr ⟨hI.nodup s.userId, List.nodup_singleton id, by
          rintro a ha b hb rfl
          exact hnew (List.mem_singleton.mp hb ▸ ha)⟩
    · rw [members_write_other id s h]
      exact hI.nodup userId
  · rcases hread h with ⟨rfl, hrid, hruser⟩ | ⟨-, h⟩
    · exact ⟨hrid, user, hruser, hmem.mpr (.inr ⟨rfl, rfl⟩)⟩
    · obtain ⟨hrid, user', hruser, hin⟩ := hI.listed h
      exact ⟨hrid, user', hruser, hmem.mpr (.inl hin)⟩
  · rcases hread h with ⟨rfl, -, hruser⟩ | ⟨hne, h⟩
    · rcases hmem.mp hin with hin | ⟨-, rfl⟩
      · rw [hruser, ← huser]
        exact hone _ hin
      · exact hruser
    · rcases hmem.mp hin with hin | ⟨heq, -⟩
      · exact hI.owner hin h
      · exact absurd heq hne

theorem Keyspace.members_srem (key member : CStr) :
    Keyspace.members (ks.srem key member).2 key = (ks.members key).filter (· ≠ member) := by
  unfold srem
  cases hkey : ks key with
  | none =>
    unfold members
    simp only [hkey, List.filter_nil]
  | some entry =>
    obtain ⟨value, expires⟩ := entry
    cases value with
    | set all =>
      unfold members
      simp only [hkey, Function.update_self]
      by_cases hempty : all.filter (fun x => decide (x ≠ member)) = []
      · rw [if_pos hempty, hempty]
      · rw [if_neg hempty]
    | string s =>
      unfold members
      simp only [hkey, List.filter_nil]
    | other =>
      unfold members
      simp only [hkey, List.filter_nil]

/-- A deletion takes the id out of a set, or leaves the set alone. -/
theorem members_drop (L : Extern) (keyPrefix : CStr) (ks : Keyspace) (id : CStr) (userId : Option CStr) :
    (ks.drop L keyPrefix id).members (userKey keyPrefix userId) = ks.members (userKey keyPrefix userId) ∨
      (ks.drop L keyPrefix id).members (userKey keyPrefix userId) =
        (ks.members (userKey keyPrefix userId)).filter (· ≠ id) := by
  have hdel : Keyspace.members (Function.update ks (sessionKey keyPrefix id) none) (userKey keyPrefix userId) =
      ks.members (userKey keyPrefix userId) :=
    Keyspace.members_congr (Function.update_of_ne (sessionKey_ne_userKey keyPrefix id userId).symm _ _)
  unfold Keyspace.drop
  split
  · exact .inl hdel
  · rename_i s _
    by_cases hkey : userKey keyPrefix userId = userKey keyPrefix s.userId
    · refine .inr ?_
      rw [hkey, Keyspace.members_srem, ← hkey, hdel]
    · refine .inl ?_
      rw [Keyspace.members_congr (Keyspace.srem_other _ _ hkey), hdel]

theorem mem_drop {id id' : CStr} {userId : Option CStr}
    (h : id' ∈ (ks.drop L keyPrefix id).members (userKey keyPrefix userId)) :
    id' ∈ ks.members (userKey keyPrefix userId) := by
  rcases members_drop L keyPrefix ks id userId with heq | heq <;> rw [heq] at h
  · exact h
  · exact (List.mem_filter.mp h).1

theorem mem_drop_other {id id' : CStr} {userId : Option CStr} (hne : id' ≠ id)
    (h : id' ∈ ks.members (userKey keyPrefix userId)) :
    id' ∈ (ks.drop L keyPrefix id).members (userKey keyPrefix userId) := by
  rcases members_drop L keyPrefix ks id userId with heq | heq <;> rw [heq]
  · exact h
  · exact List.mem_filter.mpr ⟨h, decide_eq_true hne⟩

theorem nodup_drop {id : CStr} {userId : Option CStr} (h : (ks.members (userKey keyPrefix userId)).Nodup) :
    ((ks.drop L keyPrefix id).members (userKey keyPrefix userId)).Nodup := by
  rcases members_drop L keyPrefix ks id userId with heq | heq <;> rw [heq]
  · exact h
  · exact h.filter _

theorem Indexed.drop (hI : Indexed L keyPrefix ks) (id : CStr) : Indexed L keyPrefix (ks.drop L keyPrefix id) := by
  have hread : ∀ {id' s}, readSession L (ks.drop L keyPrefix id) (sessionKey keyPrefix id') = some s →
      id' ≠ id ∧ readSession L ks (sessionKey keyPrefix id') = some s := by
    intro id' s h
    rw [readSession_drop] at h
    split at h
    · cases h
    · rename_i hne
      exact ⟨hne, h⟩
  refine ⟨?_, fun userId => nodup_drop (hI.nodup userId), fun h => ?_, fun hin h => ?_⟩
  · have hdeleted : PlainSets keyPrefix (Function.update ks (sessionKey keyPrefix id) none) := hI.sets.update (.inl rfl)
    unfold Keyspace.drop
    split
    · exact hdeleted
    · exact hdeleted.srem _ id
  · obtain ⟨hne, h⟩ := hread h
    obtain ⟨hid, user, huser, hin⟩ := hI.listed h
    exact ⟨hid, user, huser, mem_drop_other hne hin⟩
  · exact hI.owner (mem_drop hin) (hread h).2

theorem readSession_dropEach (sessions : List Session) (id : CStr) :
    readSession L (ks.dropEach L keyPrefix sessions) (sessionKey keyPrefix id) =
      if id ∈ sessions.filterMap (·.id) then none else readSession L ks (sessionKey keyPrefix id) := by
  unfold Keyspace.dropEach
  induction sessions.filterMap (·.id) generalizing ks with
  | nil => rw [List.foldl_nil, if_neg List.not_mem_nil]
  | cons id' rest ih =>
    rw [List.foldl_cons, ih, readSession_drop]
    by_cases hid : id = id'
    · simp [hid]
    · simp [hid]

theorem Indexed.dropEach (hI : Indexed L keyPrefix ks) (sessions : List Session) :
    Indexed L keyPrefix (ks.dropEach L keyPrefix sessions) := by
  unfold Keyspace.dropEach
  induction sessions.filterMap (·.id) generalizing ks with
  | nil => exact hI
  | cons id rest ih => exact ih (hI.drop id)

/-- What a listing finds. -/
theorem Indexed.mem_sessionsAt (hI : Indexed L keyPrefix ks) {user : CStr} {ids : List CStr}
    (hperm : (ks.members (userKey keyPrefix (some user))).Perm ids) {s : Session} :
    s ∈ sessionsAt L keyPrefix ks ids ↔
      s.userId = some user ∧ ∃ id, readSession L ks (sessionKey keyPrefix id) = some s := by
  unfold sessionsAt
  rw [List.mem_filterMap]
  constructor
  · rintro ⟨id, hin, h⟩
    exact ⟨hI.owner (hperm.mem_iff.mpr hin) h, id, h⟩
  · rintro ⟨huser, id, h⟩
    obtain ⟨-, user', huser', hin⟩ := hI.listed h
    cases huser.symm.trans huser'
    exact ⟨id, hperm.mem_iff.mp hin, h⟩

/-- Each once: their ids are distinct. -/
theorem Indexed.nodup_sessionsAt (hI : Indexed L keyPrefix ks) {ids : List CStr} (hids : ids.Nodup) :
    ((sessionsAt L keyPrefix ks ids).map (·.id)).Nodup := by
  unfold sessionsAt
  induction ids with
  | nil => exact List.nodup_nil
  | cons id rest ih =>
    obtain ⟨hnew, hrest⟩ := List.nodup_cons.mp hids
    rw [List.filterMap_cons]
    cases hread : readSession L ks (sessionKey keyPrefix id) with
    | none => exact ih hrest
    | some s =>
      rw [List.map_cons, List.nodup_cons]
      refine ⟨fun hmem => ?_, ih hrest⟩
      obtain ⟨s', hs', heq⟩ := List.mem_map.mp hmem
      obtain ⟨id', hin, hread'⟩ := List.mem_filterMap.mp hs'
      rw [(hI.listed hread).1, (hI.listed hread').1, Option.some.injEq] at heq
      exact hnew (heq ▸ hin)

/-- What a bulk deletion leaves. -/
theorem Indexed.readSession_bulk (hI : Indexed L keyPrefix ks) {user : CStr} {ids : List CStr}
    (hperm : (ks.members (userKey keyPrefix (some user))).Perm ids) {id : CStr} {s : Session} :
    readSession L (ks.dropEach L keyPrefix (sessionsAt L keyPrefix ks ids)) (sessionKey keyPrefix id) = some s ↔
      readSession L ks (sessionKey keyPrefix id) = some s ∧ s.userId ≠ some user := by
  rw [readSession_dropEach]
  constructor
  · intro h
    split at h
    · cases h
    · rename_i hkept
      refine ⟨h, fun huser => hkept (List.mem_filterMap.mpr ⟨s, ?_, (hI.listed h).1⟩)⟩
      exact (hI.mem_sessionsAt hperm).mpr ⟨huser, id, h⟩
  · rintro ⟨h, hne⟩
    rw [if_neg, h]
    intro hmem
    obtain ⟨s', hs', hid'⟩ := List.mem_filterMap.mp hmem
    obtain ⟨huser, id', h'⟩ := (hI.mem_sessionsAt hperm).mp hs'
    cases (hI.listed h').1.symm.trans hid'
    cases h'.symm.trans h
    exact hne huser

/-- Once a user's sessions are deleted, so can be the set. -/
theorem Indexed.dropUser (hI : Indexed L keyPrefix ks) {user : CStr} {ids : List CStr}
    (hperm : (ks.members (userKey keyPrefix (some user))).Perm ids) :
    Indexed L keyPrefix (Function.update (ks.dropEach L keyPrefix (sessionsAt L keyPrefix ks ids))
      (userKey keyPrefix (some user)) none) := by
  have hE := hI.dropEach (sessionsAt L keyPrefix ks ids)
  have hread : ∀ id, readSession L (Function.update (ks.dropEach L keyPrefix (sessionsAt L keyPrefix ks ids))
      (userKey keyPrefix (some user)) none) (sessionKey keyPrefix id) =
      readSession L (ks.dropEach L keyPrefix (sessionsAt L keyPrefix ks ids)) (sessionKey keyPrefix id) :=
    fun id => readSession_congr (Function.update_of_ne (sessionKey_ne_userKey keyPrefix id _) _ _)
  have hmembers : ∀ userId, Keyspace.members (Function.update (ks.dropEach L keyPrefix (sessionsAt L keyPrefix ks ids))
      (userKey keyPrefix (some user)) none) (userKey keyPrefix userId) =
      if userKey keyPrefix userId = userKey keyPrefix (some user) then []
      else (ks.dropEach L keyPrefix (sessionsAt L keyPrefix ks ids)).members (userKey keyPrefix userId) := by
    intro userId
    split
    · rename_i heq
      rw [heq]
      unfold Keyspace.members
      rw [Function.update_self]
    · rename_i hne
      exact Keyspace.members_congr (Function.update_of_ne hne _ _)
  refine ⟨hE.sets.update (.inl rfl), fun userId => ?_, fun {id s} h => ?_, fun {id s user'} hin h => ?_⟩
  · rw [hmembers]
    split
    · exact List.nodup_nil
    · exact hE.nodup userId
  · rw [hread] at h
    obtain ⟨hid, user', huser, hin⟩ := hE.listed h
    refine ⟨hid, user', huser, ?_⟩
    rw [hmembers, if_neg]
    · exact hin
    · rw [userKey_some_inj]
      rintro rfl
      exact ((hI.readSession_bulk hperm).mp h).2 huser
  · rw [hread] at h
    rw [hmembers] at hin
    split at hin
    · exact (List.not_mem_nil hin).elim
    · exact hE.owner hin h

/-! ## One call -/

/-- What a call answers and leaves, when the sets and the sessions agree and it looks at live sessions only. -/
def Outcomes (L : Extern) (keyPrefix : CStr) (ks : Keyspace) : (o : StoreOp) → o.Ans → Keyspace → Prop
  | .create s, rc, ks' => ∀ id, s.id = some id → rc = 0 ∧ ks' = ks.write L keyPrefix id s
  | .get id, out, ks' => ∀ i, id = some i → out = readSession L ks (sessionKey keyPrefix i) ∧ ks' = ks
  | .update s, rc, ks' => ∀ id, s.id = some id → rc = -1 ∧ ks' = ks ∨ rc = 0 ∧ ks' = ks.write L keyPrefix id s
  | .delete id, rc, ks' => ∀ i, id = some i → rc = 0 ∧ ks' = ks.drop L keyPrefix i
  | .getByUserId userId, out, ks' => ∀ user, userId = some user → ks' = ks ∧
      ∃ ids, (ks.members (userKey keyPrefix (some user))).Perm ids ∧ out = some (sessionsAt L keyPrefix ks ids)
  | .deleteByUserId userId, rc, ks' => ∀ user, userId = some user → rc = 0 ∧
      ∃ ids, (ks.members (userKey keyPrefix (some user))).Perm ids ∧
        ks' = Function.update (ks.dropEach L keyPrefix (sessionsAt L keyPrefix ks ids))
          (userKey keyPrefix (some user)) none

theorem Indexed.total (hI : Indexed L keyPrefix ks) {o : StoreOp} (hlive : LooksAtLive L keyPrefix ks now o)
    (frames : Nat) :
    Total (Steady now) redisServer (redisStore L keyPrefix (frames + 1) o) (Outcomes L keyPrefix ks o) ks := by
  cases o with
  | create s =>
    cases hid : s.id with
    | none =>
      simp only [redisStore, redisCreate, hid, total_pure]
      intro id h
      rw [hid] at h
      cases h
    | some id =>
      refine (total_redisCreate hid (hI.sets.isSet s.userId)).mpr fun id' h => ?_
      cases hid.symm.trans h
      exact ⟨rfl, rfl⟩
  | get id =>
    cases id with
    | none => exact fun _ h => by cases h
    | some i =>
      refine (total_redisGet_live (hlive i rfl)).mpr fun i' h => ?_
      cases h
      exact ⟨rfl, rfl⟩
  | update s =>
    cases hid : s.id with
    | none =>
      simp only [redisStore, redisUpdate, hid, total_pure]
      intro id h
      rw [hid] at h
      cases h
    | some id =>
      simp only [redisStore, redisUpdate, hid, total_bind]
      rw [total_redisGet_live (hlive id hid)]
      cases readSession L ks (sessionKey keyPrefix id) with
      | none => exact fun _ _ => .inl ⟨rfl, rfl⟩
      | some existing =>
        refine (total_redisCreate hid (hI.sets.isSet s.userId)).mpr fun id' h => ?_
        cases hid.symm.trans h
        exact .inr ⟨rfl, rfl⟩
  | delete id =>
    cases id with
    | none => exact fun _ h => by cases h
    | some i =>
      refine (total_redisDelete_live (hlive i rfl)).mpr fun i' h => ?_
      cases h
      exact ⟨rfl, rfl⟩
  | getByUserId userId =>
    cases userId with
    | none => exact fun _ h => by cases h
    | some user =>
      refine (total_redisGetByUserId (hI.sets.isSet _)).mpr fun ids hperm => ?_
      refine (total_redisCollect fun i hi => hlive i (hperm.mem_iff.mpr hi)).mpr fun user' h => ?_
      cases h
      exact ⟨rfl, ids, hperm, rfl⟩
  | deleteByUserId userId =>
    cases userId with
    | none => exact fun _ h => by cases h
    | some user =>
      obtain ⟨hmembers, hown⟩ := hlive
      simp only [redisStore, redisDeleteByUserId, total_bind]
      refine (total_redisGetByUserId (hI.sets.isSet _)).mpr fun ids hperm => ?_
      refine (total_redisCollect fun i hi => hmembers i (hperm.mem_iff.mpr hi)).mpr ?_
      simp only [List.nil_append, total_bind]
      have hown : ∀ s ∈ sessionsAt L keyPrefix ks ids, ∀ i, s.id = some i →
          ¬ HoldsExpired L ks now (sessionKey keyPrefix i) := by
        intro s hs
        exact hown s ((hperm.filterMap _).mem_iff.mpr hs)
      refine (total_redisDeleteEach hown).mpr ?_
      rw [redisUserKey, total_redisKey]
      simp only [total_bind]
      rw [total_server]
      intro r _ user' h
      cases h
      exact ⟨rfl, ids, hperm, rfl⟩

/-- One step keeps the sets and the sessions in agreement. -/
theorem Indexed.step (hI : Indexed L keyPrefix ks) {label : Option RedisCall} {ks' : Keyspace}
    (hstep : RedisStep L keyPrefix ks label ks') (hlive : MeetsLive L keyPrefix ⟨ks, label, ks'⟩)
    (hone : KeepsUser keyPrefix ⟨ks, label, ks'⟩) (hjson : WritesReadBack L ⟨ks, label, ks'⟩) :
    Indexed L keyPrefix ks' := by
  cases hstep with
  | eviction h => exact hI.evict h
  | @call frames c tr _ hop hex hwithin =>
    obtain ⟨now, o, ans⟩ := c
    have hout := (hI.total (hlive _ rfl) frames).exec hex hwithin
    have hwrite : ∀ {s : Session}, o.written = some s → s.id ≠ none ∧ s.userId ≠ none → ∀ id, s.id = some id →
        Indexed L keyPrefix (ks.write L keyPrefix id s) := by
      intro s hs hnn id hid
      obtain ⟨user, huser⟩ := Option.ne_none_iff_exists'.mp hnn.2
      exact hI.write hid huser (hjson _ s rfl hs) fun user' h => hone _ s id rfl hs hid user' h
    cases o with
    | create s =>
      obtain ⟨id, hid⟩ := Option.ne_none_iff_exists'.mp hop.1
      rw [(hout id hid).2]
      exact hwrite rfl hop id hid
    | get id =>
      obtain ⟨i, rfl⟩ := Option.ne_none_iff_exists'.mp hop
      rw [(hout i rfl).2]
      exact hI
    | update s =>
      obtain ⟨id, hid⟩ := Option.ne_none_iff_exists'.mp hop.1
      rcases hout id hid with ⟨-, heq⟩ | ⟨-, heq⟩ <;> rw [heq]
      · exact hI
      · exact hwrite rfl hop id hid
    | delete id =>
      obtain ⟨i, rfl⟩ := Option.ne_none_iff_exists'.mp hop
      rw [(hout i rfl).2]
      exact hI.drop i
    | getByUserId userId =>
      obtain ⟨user, rfl⟩ := Option.ne_none_iff_exists'.mp hop
      rw [(hout user rfl).1]
      exact hI
    | deleteByUserId userId =>
      obtain ⟨user, rfl⟩ := Option.ne_none_iff_exists'.mp hop
      obtain ⟨-, ids, hperm, heq⟩ := hout user rfl
      rw [heq]
      exact hI.dropUser hperm

/-- In a state where they agree, a listing and a bulk deletion are exact. -/
theorem Indexed.exact (hI : Indexed L keyPrefix ks) {label : Option RedisCall} {ks' : Keyspace}
    (hstep : RedisStep L keyPrefix ks label ks') (hlive : MeetsLive L keyPrefix ⟨ks, label, ks'⟩) :
    ListsExactly L keyPrefix ⟨ks, label, ks'⟩ ∧ DeletesExactly L keyPrefix ⟨ks, label, ks'⟩ := by
  have hfresh : ∀ {now user} {s : Session},
      (∀ i ∈ ks.members (userKey keyPrefix (some user)), ¬ HoldsExpired L ks now (sessionKey keyPrefix i)) →
      s.userId = some user → ∀ {id}, readSession L ks (sessionKey keyPrefix id) = some s → s.expiredAt now = false := by
    intro now user s hmembers huser id hread
    obtain ⟨-, user', huser', hin⟩ := hI.listed hread
    cases huser.symm.trans huser'
    rw [← Bool.not_eq_true]
    exact fun hexp => hmembers id hin ⟨s, hread, hexp⟩
  constructor
  · intro now user out hlabel
    cases hlabel
    cases hstep with
    | @call frames c tr _ hop hex hwithin =>
      have hmembers := hlive _ rfl
      obtain ⟨-, ids, hperm, rfl⟩ := (hI.total hmembers frames).exec hex hwithin user rfl
      refine ⟨_, rfl, hI.nodup_sessionsAt (hperm.nodup_iff.mp (hI.nodup _)), fun s => ?_⟩
      rw [hI.mem_sessionsAt hperm]
      constructor
      · rintro ⟨huser, id, hread⟩
        exact ⟨huser, hfresh hmembers huser hread, id, hread⟩
      · rintro ⟨huser, -, id, hread⟩
        exact ⟨huser, id, hread⟩
  · intro now user rc hlabel
    cases hlabel
    cases hstep with
    | @call frames c tr _ hop hex hwithin =>
      have hlooks := hlive _ rfl
      obtain ⟨rfl, ids, hperm, heq⟩ := (hI.total hlooks frames).exec hex hwithin user rfl
      refine ⟨rfl, fun id s => ?_⟩
      show readSession L ks' (sessionKey keyPrefix id) = some s ↔ _
      rw [heq, readSession_congr (Function.update_of_ne (sessionKey_ne_userKey keyPrefix id _) _ _),
        hI.readSession_bulk hperm]
      refine and_congr_right fun hread => ?_
      constructor
      · exact fun hne h => hne h.1
      · exact fun hnot huser => hnot ⟨huser, hfresh hlooks.1 huser hread, id, hread⟩

end

/-- **The sets are exact.** In every run in which no id is stored for a user
while another's set has it, and no call comes upon an expired session, a
listing gives each of the user's sessions once and no other, and a bulk
deletion deletes these and no other. -/
theorem redis_index_exact {L : Extern} {keyPrefix : CStr} {h : RedisHistory} {ks : Keyspace}
    (hrun : Run (RedisStep L keyPrefix) Keyspace.empty h ks) (hjson : ∀ t ∈ h, WritesReadBack L t)
    (hone : ∀ t ∈ h, KeepsUser keyPrefix t) (hlive : ∀ t ∈ h, MeetsLive L keyPrefix t) :
    ∀ t ∈ h, ListsExactly L keyPrefix t ∧ DeletesExactly L keyPrefix t := by
  let P : RedisHistory → Keyspace → Prop :=
    fun h ks => (∀ t ∈ h, WritesReadBack L t) → (∀ t ∈ h, KeepsUser keyPrefix t) →
    (∀ t ∈ h, MeetsLive L keyPrefix t) →
    Indexed L keyPrefix ks ∧ ∀ t ∈ h, ListsExactly L keyPrefix t ∧ DeletesExactly L keyPrefix t
  have hP : P h ks := by
    refine hrun.invariant (P := P) (fun _ _ _ => ⟨.empty, fun t ht => (List.not_mem_nil ht).elim⟩) ?_
    intro h ks l ks' _ hP hstep hjson hone hlive
    have hmem : ⟨ks, l, ks'⟩ ∈ h ++ [⟨ks, l, ks'⟩] := List.mem_append_right _ List.mem_cons_self
    obtain ⟨hI, hall⟩ := hP (fun t ht => hjson t (List.mem_append_left _ ht))
      (fun t ht => hone t (List.mem_append_left _ ht)) fun t ht => hlive t (List.mem_append_left _ ht)
    refine ⟨hI.step hstep (hlive _ hmem) (hone _ hmem) (hjson _ hmem), fun t ht => ?_⟩
    rcases List.mem_append.mp ht with ht | ht
    · exact hall t ht
    · rw [List.mem_singleton.mp ht]
      exact hI.exact hstep (hlive _ hmem)
  exact (hP hjson hone hlive).2

/-! ## Concrete runs -/

/-- The server answers every command. -/
theorem redisServer_answers {now : Int} (o : RedisOp) (ks : Keyspace) :
    ∃ tr reply ks', redisServer o ks tr reply ks' ∧ ∀ e ∈ tr, Steady now e :=
  ⟨[], _, _, ⟨rfl, rfl, _, .refl _, rfl⟩, fun _ he => (List.not_mem_nil he).elim⟩

theorem exists_redisStep {L : Extern} {keyPrefix : CStr} {ks : Keyspace} {now : Int} (o : StoreOp) (hop : o.NonNull)
    (Q : o.Ans → Keyspace → Prop) (h : Total (Steady now) redisServer (redisStore L keyPrefix 1 o) Q ks) :
    ∃ ans ks', RedisStep L keyPrefix ks (some ⟨now, o, ans⟩) ks' ∧ Q ans ks' := by
  obtain ⟨tr, ans, ks', hex, hwithin, hQ⟩ := h.outcome redisServer_answers
  exact ⟨ans, ks', .call hop hex hwithin, hQ⟩

/-- A session of `user` without an expiry, and the object it is stored as. -/
def plainSession (id user : CStr) : Session := { sessionInit with id := some id, userId := some user }

def plainObject (id user : CStr) : Json :=
  .obj [("id", .str id), ("user_id", .str user), ("state", .str "active"), ("created_at", timeToJson 0)]

theorem recoded_plain {L : Extern} {id user : CStr} (h : ReadsBack L (plainSession id user)) :
    (plainSession id user).recoded L = some (plainSession id user) := by
  have hzero : throughDouble 0 = 0 := by decide +kernel
  unfold Session.recoded storedSession
  rw [h, Option.map_some, sessionOfJson_sessionFields]
  simp only [plainSession, sessionInit, Bool.false_eq_true, if_false, Bool.false_and, hzero, Option.map_none]
  rfl

/-- Storing a session in sets that are plain. -/
theorem exists_createStep {L : Extern} {keyPrefix : CStr} {ks : Keyspace} (hsets : PlainSets keyPrefix ks) (now : Int)
    (id user : CStr) : RedisStep L keyPrefix ks (some ⟨now, .create (plainSession id user), 0⟩)
      (ks.write L keyPrefix id (plainSession id user)) := by
  let Q : Int → Keyspace → Prop := fun rc ks' => rc = 0 ∧ ks' = ks.write L keyPrefix id (plainSession id user)
  have hout : Q 0 (ks.write L keyPrefix id (plainSession id user)) := ⟨rfl, rfl⟩
  have htotal : Total (Steady now) redisServer (redisStore L keyPrefix 1 (.create (plainSession id user))) Q ks :=
    (total_redisCreate rfl (hsets.isSet _)).mpr hout
  obtain ⟨rc, ks', hstep, rfl, rfl⟩ := exists_redisStep (.create (plainSession id user))
    ⟨Option.some_ne_none id, Option.some_ne_none user⟩ Q htotal
  exact hstep

/-- Listing a user of one session. -/
theorem exists_listStep {L : Extern} {keyPrefix : CStr} {ks : Keyspace} (hsets : PlainSets keyPrefix ks) {now : Int}
    {id user : CStr} {s : Session} (hmembers : ks.members (userKey keyPrefix (some user)) = [id])
    (hread : readSession L ks (sessionKey keyPrefix id) = some s) (hfresh : s.expiredAt now = false) :
    LooksAtLive L keyPrefix ks now (.getByUserId (some user)) ∧
      RedisStep L keyPrefix ks (some ⟨now, .getByUserId (some user), some [s]⟩) ks := by
  have hlive : LooksAtLive L keyPrefix ks now (.getByUserId (some user)) := by
    intro i hi hexp
    rw [hmembers] at hi
    rw [List.mem_singleton.mp hi] at hexp
    obtain ⟨s', hs', hpast⟩ := hexp
    cases hread.symm.trans hs'
    rw [hfresh] at hpast
    cases hpast
  let Q : Option (List Session) → Keyspace → Prop := fun out ks' => ks' = ks ∧ out = some [s]
  have htotal : Total (Steady now) redisServer (redisStore L keyPrefix 1 (.getByUserId (some user))) Q ks := by
    refine (total_redisGetByUserId (hsets.isSet _)).mpr fun ids hperm => ?_
    refine (total_redisCollect fun i hi => hlive i (hperm.mem_iff.mpr hi)).mpr ⟨rfl, ?_⟩
    rw [hmembers] at hperm
    rw [List.perm_singleton.mp hperm.symm, sessionsAt, List.filterMap_cons, hread]
    rfl
  obtain ⟨out, ks', hstep, rfl, rfl⟩ := exists_redisStep (.getByUserId (some user)) (Option.some_ne_none user) Q htotal
  exact ⟨hlive, hstep⟩

/-- A session created and listed. -/
theorem redis_index_listed : ∃ (L : Extern) (h : RedisHistory) (ks : Keyspace) (s : Session),
    Run (RedisStep L "dbsc") Keyspace.empty h ks ∧
    (∃ t ∈ h, t.label = some ⟨0, .getByUserId (some "u".toList), some [s]⟩) ∧
    ∀ t ∈ h, ListsExactly L "dbsc" t ∧ DeletesExactly L "dbsc" t := by
  let L := Extern.knowing [plainObject "a" "u"] fun _ _ => false
  let s := plainSession "a" "u"
  let ks := Keyspace.empty.write L "dbsc" "a" s
  have hjson : ReadsBack L s := knowing_parse [] fun _ h => (List.not_mem_nil h).elim
  have hsets₀ : PlainSets "dbsc" Keyspace.empty := fun _ _ h => nomatch h
  have hmembers : ks.members (userKey "dbsc" (some "u".toList)) = ["a"] := Keyspace.members_write (hsets₀.isSet _) "a"
  have hread : readSession L ks (sessionKey "dbsc" "a") = some s := by
    rw [readSession_write, if_pos rfl]
    exact recoded_plain hjson
  obtain ⟨hlive, hstep⟩ := @exists_listStep L _ _ (hsets₀.write L "a" s) 0 _ _ _ hmembers hread rfl
  have hrun : Run (RedisStep L "dbsc") Keyspace.empty _ _ :=
    (Run.init.step (exists_createStep hsets₀ 0 "a" "u")).step hstep
  refine ⟨L, _, _, s, hrun, ⟨_, List.mem_append_right _ List.mem_cons_self, rfl⟩, redis_index_exact hrun ?_ ?_ ?_⟩
  · intro t ht c s hc hs
    simp only [List.nil_append, List.cons_append, List.mem_cons, List.not_mem_nil, or_false] at ht
    rcases ht with rfl | rfl <;> cases hc <;> cases hs
    exact hjson
  · intro t ht c s id hc hs hid user huser
    simp only [List.nil_append, List.cons_append, List.mem_cons, List.not_mem_nil, or_false] at ht
    rcases ht with rfl | rfl <;> cases hc <;> cases hs
    exact (List.not_mem_nil huser).elim
  · intro t ht c hc
    simp only [List.nil_append, List.cons_append, List.mem_cons, List.not_mem_nil, or_false] at ht
    rcases ht with rfl | rfl <;> cases hc
    · trivial
    · exact hlive

/-- Two sessions with one id, of two users: the first user's listing has the second's. -/
theorem redis_index_stale : ∃ (L : Extern) (h : RedisHistory) (ks : Keyspace) (s : Session),
    Run (RedisStep L "dbsc") Keyspace.empty h ks ∧ (∀ t ∈ h, WritesReadBack L t) ∧ (∀ t ∈ h, MeetsLive L "dbsc" t) ∧
    s.userId = some ("v" : CStr) ∧
    ∃ t ∈ h, t.label = some ⟨0, .getByUserId (some "u".toList), some [s]⟩ ∧ ¬ ListsExactly L "dbsc" t := by
  let L := Extern.knowing [plainObject "a" "u", plainObject "a" "v"] fun _ _ => false
  let first := plainSession "a" "u"
  let second := plainSession "a" "v"
  let ks₁ := Keyspace.empty.write L "dbsc" "a" first
  let ks₂ := ks₁.write L "dbsc" "a" second
  have hfirst : ReadsBack L first := knowing_parse [] fun _ h => (List.not_mem_nil h).elim
  have hsecond : ReadsBack L second := by
    refine knowing_parse [plainObject "a" "u"] fun j hj => ?_
    rw [List.mem_singleton.mp hj]
    decide +kernel
  have hsets₀ : PlainSets "dbsc" Keyspace.empty := fun _ _ h => nomatch h
  have hsets₁ := hsets₀.write L "a" first
  have hsets₂ := hsets₁.write L "a" second
  have hmembers : ks₂.members (userKey "dbsc" (some "u".toList)) = ["a"] := by
    have hne : userKey "dbsc" (some "u".toList) ≠ userKey "dbsc" second.userId := by decide
    rw [members_write_other "a" second hne]
    exact Keyspace.members_write (hsets₀.isSet _) "a"
  have hread : readSession L ks₂ (sessionKey "dbsc" "a") = some second := by
    rw [readSession_write, if_pos rfl]
    exact recoded_plain hsecond
  obtain ⟨hlive, hstep⟩ := @exists_listStep L _ _ hsets₂ 0 _ _ _ hmembers hread rfl
  have hrun : Run (RedisStep L "dbsc") Keyspace.empty _ _ :=
    ((Run.init.step (exists_createStep hsets₀ 0 "a" "u")).step (exists_createStep hsets₁ 0 "a" "v")).step hstep
  refine ⟨L, _, _, second, hrun, ?_, ?_, rfl, _, List.mem_append_right _ List.mem_cons_self, rfl, fun hlists => ?_⟩
  · intro t ht c s hc hs
    simp only [List.nil_append, List.cons_append, List.mem_cons, List.not_mem_nil, or_false] at ht
    rcases ht with rfl | rfl | rfl <;> cases hc <;> cases hs
    · exact hfirst
    · exact hsecond
  · intro t ht c hc
    simp only [List.nil_append, List.cons_append, List.mem_cons, List.not_mem_nil, or_false] at ht
    rcases ht with rfl | rfl | rfl <;> cases hc
    · trivial
    · trivial
    · exact hlive
  · obtain ⟨found, heq, -, hall⟩ := hlists 0 "u" _ rfl
    cases heq
    have huser := ((hall second).mp List.mem_cons_self).1
    exact absurd huser (by decide)

end OpenDbsc
