/-
A write over Redis that reports failure.

`redis_create` sends two commands, and `redis_update` a lookup before them
that may delete. Whether a call that returns -1 has left the session and the
set of its user as they were is a matter of what the server has carried out
till then (`redis_write_iff`): the `SET` before an `SADD` that fails stays.
-/
import OpenDbsc.RedisFailures

namespace OpenDbsc

open Effects Prog

/-- The value at the session's key is as before. -/
def SameValue (skey : CStr) (ks ks' : Keyspace) : Prop :=
  (ks' skey).map RedisEntry.value = (ks skey).map RedisEntry.value

instance (skey : CStr) (ks ks' : Keyspace) : Decidable (SameValue skey ks ks') :=
  inferInstanceAs (Decidable (_ = _))

/-- The members of the user's set are as before. -/
def SameMembers (ukey : CStr) (ks ks' : Keyspace) : Prop :=
  ∀ member, member ∈ ks'.members ukey ↔ member ∈ ks.members ukey

/-- Not a command that deletes the session's key, or writes another value there. -/
def KeepsValue (skey : CStr) (ks : Keyspace) : RedisOp → Prop
  | .set key value _ => key = skey → (ks skey).map RedisEntry.value = some (.string value)
  | .del key => key ≠ skey
  | _ => True

/-- Not a command that adds a new member to the user's set, or removes one. -/
def KeepsMembers (ukey : CStr) (ks : Keyspace) : RedisOp → Prop
  | .sadd key member => key = ukey → ks.IsSet ukey → member ∈ ks.members ukey
  | .srem key member => key = ukey → member ∉ ks.members ukey
  | _ => True

/-! ## What the server carries out -/

inductive WriteKind where
  | create
  | update

def WriteKind.program (L : Extern) (keyPrefix : CStr) (frames : Nat) (s : Session) : WriteKind → RedisProg Int
  | create => redisCreate L keyPrefix s
  | update => redisUpdate L keyPrefix frames s

/-- What an update does first: a lookup that finds the session. -/
def WriteKind.Before (L : Extern) (keyPrefix : CStr) (frames : Nat) (id : CStr) :
    WriteKind → List (Event (Sys.sum RedisSig)) → Prop
  | create, before => before = []
  | update, before => ∃ found, Trace (redisGet L keyPrefix frames id) before (some found)

/-- With the allocations as they are answered then, `session_to_json` makes `json` of `s`. -/
def WriteKind.Renders (L : Extern) (keyPrefix : CStr) (frames : Nat) (id : CStr) (s : Session) (kind : WriteKind)
    (tr : List (Event (Sys.sum RedisSig))) (json : CStr) : Prop :=
  ∃ before trJson rest, tr = before ++ (trJson.map Event.inl ++ rest) ∧ kind.Before L keyPrefix frames id before ∧
    Trace (sessionToJson L s) trJson (some json)

/-- A lookup, or the removal of a session or of a user's member. -/
def OnlyRemoves (keyPrefix : CStr) : RedisOp → Prop
  | .get _ => True
  | .del key => ∃ id, key = sessionKey keyPrefix id
  | .srem key _ => ∃ userId, key = userKey keyPrefix userId
  | _ => False

theorem allowsLookup_onlyRemoves (keyPrefix : CStr) : AllowsLookup keyPrefix (OnlyRemoves keyPrefix) where
  get _ := trivial
  del id := ⟨id, rfl⟩
  srem userId _ := ⟨userId, rfl⟩

section

variable {L : Extern} {keyPrefix : CStr} {frames : Nat} {id : CStr} {userId : Option CStr} {ks : Keyspace}
  {log log' : RedisLog}
  {tr : List (Event (Sys.sum RedisSig))}

theorem OnlyRemoves.members {o : RedisOp} (h : OnlyRemoves keyPrefix o) (member : CStr) :
    member ∈ (ks.answer o).2.members (userKey keyPrefix userId) ↔
      member ∈ ks.members (userKey keyPrefix userId) ∧ o ≠ .srem (userKey keyPrefix userId) member := by
  cases o with
  | get key => exact (and_iff_left fun heq => by cases heq).symm
  | del key =>
    obtain ⟨id', rfl⟩ := h
    rw [Keyspace.answer, Keyspace.members_congr
      (Function.update_of_ne (sessionKey_ne_userKey keyPrefix id' userId).symm _ ks)]
    exact (and_iff_left fun heq => by cases heq).symm
  | srem key member' =>
    by_cases hkey : key = userKey keyPrefix userId
    · subst hkey
      rw [Keyspace.answer, Keyspace.members_srem, List.mem_filter, decide_eq_true_eq]
      refine and_congr_right fun _ => not_congr ?_
      constructor
      · rintro rfl
        rfl
      · intro heq
        cases heq
        rfl
    · rw [Keyspace.answer, Keyspace.members_congr (ks.srem_other member' (Ne.symm hkey))]
      refine (and_iff_left fun heq => hkey ?_).symm
      cases heq
      rfl
  | set key value ex => exact h.elim
  | sadd key member' => exact h.elim
  | smembers key => exact h.elim

/-- The members that no command carried out has removed are left. -/
theorem exec_members {α : Type} {p : RedisProg α} (hp : AllOps (Commands (OnlyRemoves keyPrefix)) p) {a : α}
    (h : Exec redisLogged p log tr a log') (userId : Option CStr) :
    ∃ new, log'.carried = log.carried ++ new ∧ (∀ o ∈ new, OnlyRemoves keyPrefix o) ∧
      ∀ member, member ∈ log'.keyspace.members (userKey keyPrefix userId) ↔
        member ∈ log.keyspace.members (userKey keyPrefix userId) ∧ .srem (userKey keyPrefix userId) member ∉ new := by
  induction h with
  | ret => exact ⟨[], (List.append_nil _).symm, nofun, fun member => (and_iff_left nofun).symm⟩
  | env _ ih => exact ih (hp.2 _)
  | @call o k log tr₁ reply log₁ tr a log' hcall _ ih =>
    obtain ⟨new, hnew, honly, hmembers⟩ := ih (hp.2 reply)
    obtain ⟨-, ⟨rfl, -⟩ | ⟨rfl, -⟩⟩ := hcall
    · refine ⟨o :: new, by rw [hnew, RedisLog.carry]; simp, List.forall_mem_cons.mpr ⟨hp.1, honly⟩, fun member => ?_⟩
      have hone : member ∈ (log.carry o).keyspace.members (userKey keyPrefix userId) ↔ _ :=
        OnlyRemoves.members hp.1 member
      rw [hmembers, hone, List.mem_cons, not_or, and_assoc]
      exact and_congr_right fun _ => and_congr_left fun _ => ne_comm
    · exact ⟨new, hnew, honly, hmembers⟩

/-- With nothing at the key, a lookup only asks for it. -/
theorem redisGet_absent {found : Option Session}
    (h : Exec redisLogged (redisGet L keyPrefix frames id) log tr found log')
    (habsent : log.keyspace (sessionKey keyPrefix id) = none) :
    log'.keyspace = log.keyspace ∧ ∃ new, log'.carried = log.carried ++ new ∧
      ∀ o ∈ new, o = .get (sessionKey keyPrefix id) := by
  cases frames with
  | zero =>
    obtain ⟨-, tr', -, ht⟩ := exec_lift.mp h
    obtain ⟨x, -⟩ := trace_op.mp ht
    cases x
  | succ frames =>
    rw [redisGet] at h
    obtain ⟨tr₁, key, log₁, tr₂, rfl, hkey, hrest⟩ := exec_bind.mp h
    obtain ⟨rfl, tr₃, rfl, hkeyed⟩ := exec_lift.mp hkey
    rcases trace_redisKey hkeyed with rfl | rfl
    · obtain ⟨tr₄, reply, log₂, tr₅, rfl, hcommand, hreply⟩ := exec_bind.mp hrest
      obtain ⟨tr₆, rfl, hserved⟩ := exec_call.mp hcommand
      have hnil : log₁.keyspace.get (sessionKey keyPrefix id) = .nil := by simp [Keyspace.get, habsent]
      have hlog : log₂.keyspace = log₁.keyspace ∧ (∃ new, log₂.carried = log₁.carried ++ new ∧
          ∀ o ∈ new, o = .get (sessionKey keyPrefix id)) ∧
            (reply = none ∨ reply = some .error ∨ reply = some .nil) := by
        obtain ⟨-, ⟨rfl, hanswer | ⟨r, hr, hanswer⟩⟩ | ⟨rfl, hanswer | hanswer⟩⟩ := hserved
        · exact ⟨rfl, ⟨_, rfl, fun o ho => List.mem_singleton.mp ho⟩, .inl hanswer⟩
        · rw [Keyspace.answer, RedisReply.reorders_iff (log₁.keyspace.get_ne_array _), hnil] at hr
          exact ⟨rfl, ⟨_, rfl, fun o ho => List.mem_singleton.mp ho⟩, .inr (.inr (hr ▸ hanswer))⟩
        · exact ⟨rfl, ⟨[], (List.append_nil _).symm, fun _ ho => absurd ho List.not_mem_nil⟩, .inl hanswer⟩
        · exact ⟨rfl, ⟨[], (List.append_nil _).symm, fun _ ho => absurd ho List.not_mem_nil⟩, .inr (.inl hanswer)⟩
      obtain ⟨hkeyspace, hnew, hreplied⟩ := hlog
      have hnone : redisGetReply L (redisDeleteWith (redisGet L keyPrefix frames) keyPrefix id) reply = pure none := by
        rcases hreplied with rfl | rfl | rfl <;> rfl
      rw [hnone] at hreply
      obtain ⟨-, -, rfl⟩ := exec_pure.mp hreply
      exact ⟨hkeyspace, hnew⟩
    · obtain ⟨-, -, rfl⟩ := exec_pure.mp hrest
      exact ⟨rfl, [], (List.append_nil _).symm, fun _ ho => absurd ho List.not_mem_nil⟩

/-- What a call leaves after the commands `new`, at the session's key and in the user's set. -/
structure Leaves (skey ukey : CStr) (ks ks' : Keyspace) (new : List RedisOp) : Prop where
  value : SameValue skey ks ks' ↔ ∀ o ∈ new, KeepsValue skey ks o
  members : SameMembers ukey ks ks' ↔ ∀ o ∈ new, KeepsMembers ukey ks o

theorem Leaves.nothing (skey ukey : CStr) (ks : Keyspace) : Leaves skey ukey ks ks [] :=
  ⟨iff_of_true rfl nofun, iff_of_true (fun _ => Iff.rfl) nofun⟩

/-- A lookup leaves everything as it is exactly when it does not delete. -/
theorem redisGet_leaves {found : Option Session}
    (h : Exec redisLogged (redisGet L keyPrefix frames id) log tr found log')
    (userId : Option CStr) :
    ∃ new, log'.carried = log.carried ++ new ∧
      Leaves (sessionKey keyPrefix id) (userKey keyPrefix userId) log.keyspace log'.keyspace new ∧
      ∀ o ∈ new, OnlyRemoves keyPrefix o := by
  obtain ⟨new, hnew, honly, hmembers⟩ :=
    exec_members (allOps_redisGet (allowsLookup_onlyRemoves keyPrefix) frames id) h userId
  refine ⟨new, hnew, ⟨?_, ?_⟩, honly⟩
  · by_cases habsent : log.keyspace (sessionKey keyPrefix id) = none
    · obtain ⟨hkeyspace, new', hnew', hgets⟩ := redisGet_absent h habsent
      obtain rfl : new = new' := List.append_cancel_left (hnew.symm.trans hnew')
      unfold SameValue
      refine iff_of_true (by rw [hkeyspace]) fun o ho => ?_
      rw [hgets o ho]
      trivial
    · obtain ⟨new', hnew', hkey⟩ := exec_sparesKey (allOps_redisGet (allowsLookup_sparesKey keyPrefix id) frames id) h
      obtain rfl : new = new' := List.append_cancel_left (hnew.symm.trans hnew')
      unfold SameValue
      rcases hkey with ⟨hdel, hnone⟩ | ⟨hdel, hsame⟩
      · refine iff_of_false (fun hvalue => habsent ?_) fun hall => hall _ hdel rfl
        rw [← Option.map_eq_none_iff, ← hvalue, hnone, Option.map_none]
      · refine iff_of_true (by rw [hsame]) fun o ho => ?_
        cases o with
        | del key =>
          rintro rfl
          exact hdel ho
        | set key value ex => exact (honly _ ho).elim
        | _ => trivial
  · constructor
    · intro hsame o ho
      cases o with
      | srem key member =>
        rintro rfl hmem
        exact ((hmembers member).mp ((hsame member).mpr hmem)).2 ho
      | sadd key member => exact (honly _ ho).elim
      | _ => trivial
    · intro hall member
      rw [hmembers]
      exact and_iff_left_of_imp fun hmem ho => hall _ ho rfl hmem

/-! ## The two commands -/

/-- The `SADD` of the id gets a reply that is no error. -/
def SaddAnswered (ukey id : CStr) (tr : List (Event (Sys.sum RedisSig))) : Prop :=
  ∃ r, replied (.sadd ukey id) (some r) ∈ tr ∧ r ≠ .error

theorem exec_redisWrite {skey ukey json : CStr} {ex : Option Int} {rc : Int}
    (h : Exec redisLogged (redisWrite skey ukey id json ex) log tr rc log') :
    (rc = 0 ∧ SaddAnswered ukey id tr ∨ rc = -1 ∧ ¬ SaddAnswered ukey id tr) ∧
      (log' = log ∨ log' = log.carry (.set skey json ex) ∨
        log' = (log.carry (.set skey json ex)).carry (.sadd ukey id)) := by
  unfold redisWrite at h
  obtain ⟨tr₁, reply, log₁, tr₂, rfl, hset, hrest⟩ := exec_bind.mp h
  obtain ⟨tr₃, rfl, hserved⟩ := exec_call.mp hset
  obtain ⟨rfl, hcarried⟩ := hserved
  have hlog₁ : log₁ = log ∨ log₁ = log.carry (.set skey json ex) := hcarried.symm.imp And.left And.left
  by_cases hfailed : redisFailed reply = true
  · rw [if_pos hfailed] at hrest
    obtain ⟨rfl, rfl, rfl⟩ := exec_pure.mp hrest
    refine ⟨.inr ⟨rfl, ?_⟩, hlog₁.imp_right .inl⟩
    rintro ⟨r, hr, -⟩
    cases List.mem_singleton.mp hr
  · rw [if_neg hfailed] at hrest
    obtain rfl : log₁ = log.carry (.set skey json ex) := by
      rcases hcarried with ⟨hlog, -⟩ | ⟨-, rfl | rfl⟩
      · exact hlog
      · exact absurd rfl hfailed
      · exact absurd rfl hfailed
    obtain ⟨tr₄, reply', log₂, tr₅, rfl, hsadd, hend⟩ := exec_bind.mp hrest
    obtain ⟨tr₆, rfl, hserved⟩ := exec_call.mp hsadd
    obtain ⟨rfl, hadded⟩ := hserved
    have hlog₂ : log₂ = log.carry (.set skey json ex) ∨ log₂ = (log.carry (.set skey json ex)).carry (.sadd ukey id) :=
      hadded.symm.imp And.left And.left
    by_cases hfailed' : redisFailed reply' = true
    · rw [if_pos hfailed'] at hend
      obtain ⟨rfl, rfl, rfl⟩ := exec_pure.mp hend
      refine ⟨.inr ⟨rfl, ?_⟩, .inr hlog₂⟩
      rintro ⟨r, hr, hne⟩
      obtain rfl : some r = reply' := by simpa using hr
      cases r with
      | error => exact hne rfl
      | _ => cases hfailed'
    · rw [if_neg hfailed'] at hend
      obtain ⟨rfl, rfl, rfl⟩ := exec_pure.mp hend
      refine ⟨.inl ⟨rfl, ?_⟩, .inr hlog₂⟩
      obtain ⟨r, rfl⟩ : ∃ r, reply' = some r := by
        cases reply' with
        | none => exact absurd rfl hfailed'
        | some r => exact ⟨r, rfl⟩
      exact ⟨r, by simp, fun herror => hfailed' (by rw [herror]; rfl)⟩

theorem Keyspace.sadd_error {key : CStr} (member : CStr) (h : ¬ ks.IsSet key) : (ks.sadd key member).2 = ks := by
  unfold sadd
  split
  · rename_i hnone
    refine absurd (fun entry hentry => ?_) h
    rw [hnone] at hentry
    cases hentry
  · rename_i members expires hset
    refine absurd (fun entry hentry => ?_) h
    rw [hset] at hentry
    cases hentry
    exact ⟨members, rfl⟩
  · rfl

theorem leaves_set {skey ukey json : CStr} {ex : Option Int} (hne : ukey ≠ skey) :
    Leaves skey ukey ks (ks.answer (.set skey json ex)).2 [.set skey json ex] := by
  have hvalue : (ks.answer (.set skey json ex)).2 skey = some ⟨.string json, ex.isSome⟩ := Function.update_self ..
  have hmembers : (ks.answer (.set skey json ex)).2.members ukey = ks.members ukey :=
    Keyspace.members_congr (Function.update_of_ne hne ..)
  refine ⟨?_, ?_⟩
  · rw [List.forall_mem_singleton, SameValue, hvalue]
    exact ⟨fun h _ => h.symm, fun h => (h rfl).symm⟩
  · rw [List.forall_mem_singleton, SameMembers, hmembers]
    exact iff_of_true (fun _ => Iff.rfl) trivial

/-- The `SADD` after the `SET` matters to the user's set alone. -/
theorem leaves_both {skey ukey json : CStr} {ex : Option Int} (hne : ukey ≠ skey) :
    Leaves skey ukey ks ((ks.answer (.set skey json ex)).2.answer (.sadd ukey id)).2
      [.set skey json ex, .sadd ukey id] := by
  let ks₁ := (ks.answer (.set skey json ex)).2
  have hkey : ks₁ ukey = ks ukey := Function.update_of_ne hne ..
  have hvalue : (ks₁.sadd ukey id).2 skey = ks₁ skey := ks₁.sadd_other id (Ne.symm hne)
  have hmembers : ks₁.members ukey = ks.members ukey := Keyspace.members_congr hkey
  have hset : ks₁.IsSet ukey ↔ ks.IsSet ukey := by
    unfold Keyspace.IsSet
    rw [hkey]
  have hleaves : Leaves skey ukey ks ks₁ [.set skey json ex] := leaves_set hne
  show Leaves skey ukey ks (ks₁.sadd ukey id).2 _
  refine ⟨?_, ?_⟩
  · rw [SameValue, hvalue]
    refine hleaves.value.trans ?_
    rw [List.forall_mem_cons, List.forall_mem_cons, List.forall_mem_singleton]
    exact and_congr_right fun _ => iff_of_true nofun trivial
  · rw [List.forall_mem_cons, List.forall_mem_singleton, SameMembers]
    refine Iff.trans ?_ (and_iff_right trivial).symm
    by_cases hset' : ks.IsSet ukey
    · rw [Keyspace.members_sadd id (hset.mpr hset'), hmembers]
      constructor
      · intro h _ _
        by_contra hid
        refine hid ((h id).mp ?_)
        rw [if_neg hid]
        exact List.mem_append_right _ List.mem_cons_self
      · intro h member
        rw [if_pos (h rfl hset')]
    · rw [Keyspace.sadd_error id (mt hset.mp hset'), hmembers]
      exact iff_of_true (fun _ => Iff.rfl) fun _ h => absurd h hset'

theorem saddAnswered_append {ukey : CStr} {tr₁ : List (Event (Sys.sum RedisSig))}
    (h : ∀ e ∈ tr₁, e.op ≠ .inr (.sadd ukey id)) : SaddAnswered ukey id (tr₁ ++ tr) ↔ SaddAnswered ukey id tr := by
  unfold SaddAnswered
  refine exists_congr fun r => and_congr_left fun _ => ?_
  rw [List.mem_append]
  exact or_iff_right fun hmem => h _ hmem rfl

/-- How a write tells that it has failed, and what it leaves; the texts that it sets are such. -/
structure WriteOutcome (skey ukey id : CStr) (renders : CStr → Prop) (log log' : RedisLog)
    (tr : List (Event (Sys.sum RedisSig))) (rc : Int) : Prop where
  code : rc = 0 ∧ SaddAnswered ukey id tr ∨ rc = -1 ∧ ¬ SaddAnswered ukey id tr
  leaves : ∃ new, log'.carried = log.carried ++ new ∧ Leaves skey ukey log.keyspace log'.keyspace new ∧
    ∀ key text ex, .set key text ex ∈ new → renders text

variable {renders : CStr → Prop}

theorem WriteOutcome.nothing {skey ukey : CStr} : WriteOutcome skey ukey id renders log log [] (-1) := by
  refine ⟨.inr ⟨rfl, ?_⟩, [], (List.append_nil _).symm, .nothing .., nofun⟩
  rintro ⟨r, hr, -⟩
  cases hr

theorem WriteOutcome.lift {skey ukey : CStr} {rc : Int} (h : WriteOutcome skey ukey id renders log log' tr rc)
    (tr₁ : List (Event Sys)) : WriteOutcome skey ukey id renders log log' (tr₁.map Event.inl ++ tr) rc := by
  refine ⟨?_, h.leaves⟩
  rw [saddAnswered_append fun e he => ?_]
  · exact h.code
  · obtain ⟨e', -, rfl⟩ := List.mem_map.mp he
    nofun

theorem redisWrite_outcome {skey ukey json : CStr} {ex : Option Int} {rc : Int} (hne : ukey ≠ skey)
    (hjson : renders json) (h : Exec redisLogged (redisWrite skey ukey id json ex) log tr rc log') :
    WriteOutcome skey ukey id renders log log' tr rc := by
  obtain ⟨hcode, hlog⟩ := exec_redisWrite h
  refine ⟨hcode, ?_⟩
  rcases hlog with rfl | rfl | rfl
  · exact ⟨[], (List.append_nil _).symm, .nothing .., nofun⟩
  · refine ⟨_, rfl, leaves_set hne, fun key text ex hmem => ?_⟩
    cases List.mem_singleton.mp hmem
    exact hjson
  · refine ⟨[.set skey json ex, .sadd ukey id], by simp [RedisLog.carry], leaves_both hne, fun key text ex hmem => ?_⟩
    rcases List.mem_pair.mp hmem with h | h <;> cases h
    exact hjson

theorem redisCreate_outcome {s : Session} (hid : s.id = some id) {rc : Int}
    (h : Exec redisLogged (redisCreate L keyPrefix s) log tr rc log') :
    WriteOutcome (sessionKey keyPrefix id) (userKey keyPrefix s.userId) id
      (WriteKind.create.Renders L keyPrefix frames id s tr) log log' tr rc := by
  unfold redisCreate at h
  rw [hid] at h
  obtain ⟨tr₁, json, log₁, tr₂, rfl, hjson, h₁⟩ := exec_bind.mp h
  obtain ⟨rfl, tr₁', rfl, htext⟩ := exec_lift.mp hjson
  refine WriteOutcome.lift ?_ tr₁'
  cases json with
  | none =>
    obtain ⟨rfl, rfl, rfl⟩ := exec_pure.mp h₁
    exact .nothing
  | some json =>
    have hrenders : WriteKind.create.Renders L keyPrefix frames id s (tr₁'.map Event.inl ++ tr₂) json :=
      ⟨[], tr₁', tr₂, rfl, rfl, htext⟩
    obtain ⟨tr₃, skey, log₂, tr₄, rfl, hskey, h₂⟩ := exec_bind.mp h₁
    obtain ⟨rfl, tr₃', rfl, hskey'⟩ := exec_lift.mp hskey
    refine WriteOutcome.lift ?_ tr₃'
    obtain ⟨tr₅, ukey, log₃, tr₆, rfl, hukey, h₃⟩ := exec_bind.mp h₂
    obtain ⟨rfl, tr₅', rfl, hukey'⟩ := exec_lift.mp hukey
    refine WriteOutcome.lift ?_ tr₅'
    rcases trace_redisKey hskey' with rfl | rfl
    · rcases trace_redisKey hukey' with rfl | rfl
      · obtain ⟨tr₇, ex, log₄, tr₈, rfl, hex, h₄⟩ := exec_bind.mp h₃
        obtain ⟨rfl, tr₇', rfl, -⟩ := exec_lift.mp hex
        exact (redisWrite_outcome (sessionKey_ne_userKey keyPrefix id s.userId).symm hrenders h₄).lift tr₇'
      · obtain ⟨rfl, rfl, rfl⟩ := exec_pure.mp h₃
        exact .nothing
    · obtain ⟨rfl, rfl, rfl⟩ := exec_pure.mp h₃
      exact .nothing

theorem redisUpdate_outcome {s : Session} (hid : s.id = some id) {rc : Int}
    (h : Exec redisLogged (redisUpdate L keyPrefix frames s) log tr rc log') :
    WriteOutcome (sessionKey keyPrefix id) (userKey keyPrefix s.userId) id
      (WriteKind.update.Renders L keyPrefix frames id s tr) log log' tr rc := by
  unfold redisUpdate at h
  rw [hid] at h
  obtain ⟨tr₁, found, log₁, tr₂, rfl, hget, hrest⟩ := exec_bind.mp h
  have hlooked : Trace (redisGet L keyPrefix frames id) tr₁ found :=
    hget.trace_eq fun _ _ _ _ _ hB => redisLogged_events hB
  have hremoves := (allOps_redisGet (allowsLookup_onlyRemoves keyPrefix) frames id).trace hlooked
  have hlookup : ∀ e ∈ tr₁, e.op ≠ .inr (.sadd (userKey keyPrefix s.userId) id) := fun e he heq => by
    have hremove := hremoves e he
    rw [heq] at hremove
    exact hremove
  cases found with
  | none =>
    obtain ⟨rfl, rfl, rfl⟩ := exec_pure.mp hrest
    obtain ⟨new, hnew, hleaves, hsets⟩ := redisGet_leaves hget s.userId
    refine ⟨.inr ⟨rfl, ?_⟩, new, hnew, hleaves, fun key text ex hmem => (hsets _ hmem).elim⟩
    rw [saddAnswered_append hlookup]
    rintro ⟨r, hr, -⟩
    cases hr
  | some found =>
    obtain ⟨hkeyspace, ⟨read, hread, hgets⟩, -⟩ := redisGet_some hget
    obtain ⟨hcode, new, hnew, hleaves, hsets⟩ := @redisCreate_outcome _ _ frames _ _ _ _ s hid rc hrest
    refine ⟨by rw [saddAnswered_append hlookup]; exact hcode, read ++ new, by rw [hnew, hread, List.append_assoc],
      ⟨?_, ?_⟩, fun key text ex hmem => ?_⟩
    · rw [List.forall_mem_append, ← hkeyspace, hleaves.value]
      refine (and_iff_right fun o ho => ?_).symm
      rw [hgets o ho]
      trivial
    · rw [List.forall_mem_append, ← hkeyspace, hleaves.members]
      refine (and_iff_right fun o ho => ?_).symm
      rw [hgets o ho]
      trivial
    · rcases List.mem_append.mp hmem with hmem | hmem
      · cases hgets _ hmem
      · obtain ⟨_, trJson, rest, rfl, rfl, htext⟩ := hsets key text ex hmem
        exact ⟨tr₁, trJson, rest, rfl, ⟨found, hlooked⟩, htext⟩

theorem WriteKind.outcome {s : Session} (hid : s.id = some id) {kind : WriteKind} {rc : Int}
    (h : Exec redisLogged (kind.program L keyPrefix frames s) log tr rc log') :
    WriteOutcome (sessionKey keyPrefix id) (userKey keyPrefix s.userId) id
      (kind.Renders L keyPrefix frames id s tr) log log' tr rc := by
  cases kind with
  | create => exact redisCreate_outcome hid h
  | update => exact redisUpdate_outcome hid h

theorem WriteKind.Renders.unique {s : Session} {kind : WriteKind} {json json' : CStr}
    (h : kind.Renders L keyPrefix frames id s tr json) (h' : kind.Renders L keyPrefix frames id s tr json') :
    json = json' := by
  obtain ⟨before, trJson, rest, rfl, hbefore, htext⟩ := h
  obtain ⟨before', trJson', rest', htr, hbefore', htext'⟩ := h'
  have hsame : trJson.map Event.inl ++ rest = trJson'.map Event.inl ++ rest' := by
    cases kind with
    | create =>
      obtain rfl := hbefore
      obtain rfl := hbefore'
      exact htr
    | update =>
      obtain ⟨_, hlooked⟩ := hbefore
      obtain ⟨_, hlooked'⟩ := hbefore'
      exact (hlooked.unique hlooked' htr).2.2
  exact Option.some.inj (htext.unique_lift htext' hsame).1

end

/-! ## A registration that fails -/

section

variable {σ : Type} {B : Comp Sys StoreSig σ} {L : Extern} {cfg : ManagerConfig} {st st' : σ}
  {tr : List (Event (Sys.sum StoreSig))} {r : Int × ManagerResponse}

end

end OpenDbsc
