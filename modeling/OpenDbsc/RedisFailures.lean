/-
Calls of the Redis store in which commands fail.

`redis_delete` does not look at the reply to its `DEL`, so it reports success
exactly as often when the key is still there (`redis_delete_iff`). A write is
two commands, and the second can fail after the first has been carried out
(`redis_write_iff`).
-/
import OpenDbsc.BackendTrouble

namespace OpenDbsc

open Effects Prog

/-! ## A key that is only deleted -/

/-- `o` is the deletion of the key, or leaves it alone. -/
def SparesKey (key : CStr) (o : RedisOp) : Prop := o = .del key ∨ ∀ ks : Keyspace, (ks.answer o).2 key = ks key

section

variable {L : Extern} {keyPrefix key : CStr} {log log' : RedisLog}

/-- Once the key is deleted it stays so; till then it keeps its value. -/
theorem exec_sparesKey {α : Type} {p : RedisProg α} (hp : AllOps (Commands (SparesKey key)) p)
    {tr : List (Event (Sys.sum RedisSig))} {a : α} (h : Exec redisLogged p log tr a log') :
    ∃ new, log'.carried = log.carried ++ new ∧
      (.del key ∈ new ∧ log'.keyspace key = none ∨ .del key ∉ new ∧ log'.keyspace key = log.keyspace key) := by
  induction h with
  | @ret a log => exact ⟨[], (List.append_nil _).symm, .inr ⟨nofun, rfl⟩⟩
  | env _ ih => exact ih (hp.2 _)
  | @call o k log tr₁ reply log₁ tr a log' hcall _ ih =>
    obtain ⟨new, hnew, hkey⟩ := ih (hp.2 reply)
    obtain ⟨-, ⟨rfl, -⟩ | ⟨rfl, -⟩⟩ := hcall
    · refine ⟨o :: new, by rw [hnew, RedisLog.carry]; simp, ?_⟩
      rcases hkey with ⟨hdel, hnone⟩ | ⟨hdel, hsame⟩
      · exact .inl ⟨List.mem_cons_of_mem o hdel, hnone⟩
      · rcases hp.1 with rfl | hspares
        · refine .inl ⟨List.mem_cons_self, ?_⟩
          rw [hsame]
          exact Function.update_self ..
        · by_cases ho : o = .del key
          · subst ho
            exact .inl ⟨List.mem_cons_self, hsame.trans (Function.update_self ..)⟩
          · refine .inr ⟨?_, hsame.trans (hspares _)⟩
            rw [List.mem_cons, not_or]
            exact ⟨Ne.symm ho, hdel⟩
    · exact ⟨new, hnew, hkey⟩

/-- A lookup or a deletion touches a session's key only by deleting it. -/
theorem allowsLookup_sparesKey (keyPrefix id : CStr) :
    AllowsLookup keyPrefix (SparesKey (sessionKey keyPrefix id)) where
  get _ := .inr fun _ => rfl
  del id' := by
    by_cases h : sessionKey keyPrefix id' = sessionKey keyPrefix id
    · rw [h]
      exact .inl rfl
    · exact .inr fun ks => Function.update_of_ne (Ne.symm h) ..
  srem userId member := .inr fun ks => ks.srem_other member (sessionKey_ne_userKey keyPrefix id userId)

theorem allOps_redisDelete (frames : Nat) (id id' : CStr) :
    AllOps (Commands (SparesKey (sessionKey keyPrefix id'))) (redisDelete L keyPrefix frames id) :=
  (compositional_allOps _).redisDeleteWith (allowsLookup_sparesKey keyPrefix id').removes
    (allOps_redisGet (allowsLookup_sparesKey keyPrefix id') frames) id

/-- The last operation is the allocation of the session's key, and it fails. -/
def KeyFails (key : CStr) (tr : List (Event (Sys.sum RedisSig))) : Prop :=
  tr.getLast? = some (Event.inl (S := Sys) ⟨.malloc (key.length + 1), false⟩)

theorem trace_redisRemove {id : CStr} {ukey : Option CStr} {tr : List (Event (Sys.sum RedisSig))} {rc : Int}
    (h : Trace (redisRemove keyPrefix id ukey) tr rc) :
    tr ≠ [] ∧ (rc = 0 ↔ ¬ KeyFails (sessionKey keyPrefix id) tr) := by
  unfold redisRemove redisSessionKey redisKey at h
  rw [lift_bind, bind_assoc] at h
  obtain ⟨tr₁, b, tr₂, rfl, hmalloc, hrest⟩ := trace_bind.mp h
  obtain ⟨tr₃, rfl, hb⟩ := trace_lift.mp hmalloc
  obtain rfl := trace_perform.mp hb
  refine ⟨nofun, ?_⟩
  cases b with
  | false =>
    obtain ⟨rfl, rfl⟩ := trace_pure.mp hrest
    exact iff_of_false nofun fun h => h rfl
  | true =>
    simp only [if_true, lift_pure, pure_bind] at hrest
    obtain ⟨tr₄, reply, tr₅, rfl, hdel, hsrem⟩ := trace_bind.mp hrest
    obtain rfl := trace_call.mp hdel
    cases ukey with
    | none =>
      obtain ⟨rfl, rfl⟩ := trace_pure.mp hsrem
      exact iff_of_true rfl nofun
    | some ukey =>
      obtain ⟨tr₆, reply', tr₇, rfl, hsrem, hpure⟩ := trace_bind.mp hsrem
      obtain rfl := trace_call.mp hsrem
      obtain ⟨rfl, rfl⟩ := trace_pure.mp hpure
      exact iff_of_true rfl nofun

/-- A deletion returns 0 unless it has no memory for the key to delete. -/
theorem trace_redisDelete {frames : Nat} {id : CStr} {tr : List (Event (Sys.sum RedisSig))} {rc : Int}
    (h : Trace (redisDelete L keyPrefix frames id) tr rc) : rc = 0 ↔ ¬ KeyFails (sessionKey keyPrefix id) tr := by
  obtain ⟨tr₁, session, tr₂, rfl, -, h₁⟩ := trace_bind.mp h
  obtain ⟨tr₃, ukey, tr₄, rfl, -, h₂⟩ := trace_bind.mp h₁
  obtain ⟨hne, hcode⟩ := trace_redisRemove h₂
  have hlast : (tr₁ ++ (tr₃ ++ tr₄)).getLast? = tr₄.getLast? := by
    rw [List.getLast?_append_of_ne_nil _ (List.append_ne_nil_of_right_ne_nil _ hne),
      List.getLast?_append_of_ne_nil _ hne]
  rw [hcode, KeyFails, KeyFails, hlast]

theorem redisLogged_events {o : RedisOp} {tr : List (Event Sys)} {reply : Option RedisReply}
    (h : redisLogged o log tr reply log') : tr = [] := h.1

/-- **When a deletion that reports success has deleted**: exactly when the key
was not there or the server has carried out a `DEL` of it. -/
theorem redisDelete_truth {frames : Nat} {id : CStr} {ks : Keyspace} {tr : List (Event (Sys.sum RedisSig))} {rc : Int}
    (h : Exec redisLogged (redisDelete L keyPrefix frames id) ⟨ks, []⟩ tr rc log') :
    (rc = 0 → log'.keyspace (sessionKey keyPrefix id) = none) ↔
      ks (sessionKey keyPrefix id) = none ∨ .del (sessionKey keyPrefix id) ∈ log'.carried ∨
        KeyFails (sessionKey keyPrefix id) tr := by
  have hcode := trace_redisDelete (h.trace_eq fun _ _ _ _ _ hB => redisLogged_events hB)
  obtain ⟨new, hnew, hkey⟩ := exec_sparesKey (allOps_redisDelete frames id id) h
  rw [List.nil_append] at hnew
  rw [hnew, hcode]
  rcases hkey with ⟨hdel, hnone⟩ | ⟨hdel, hsame⟩
  · exact iff_of_true (fun _ => hnone) (.inr (.inl hdel))
  · rw [hsame]
    constructor
    · intro h
      by_cases hfails : KeyFails (sessionKey keyPrefix id) tr
      · exact .inr (.inr hfails)
      · exact .inl (h hfails)
    · rintro (hnone | hdel' | hfails) h
      · exact hnone
      · exact absurd hdel' hdel
      · exact absurd hfails h

end

/-! ## Close over Redis -/

/-- A close that is answered 200 has found the session and had it deleted. -/
theorem exec_close {σ : Type} {B : Comp Sys StoreSig σ} {L : Extern} {cfg : ManagerConfig}
    {sessionId : Option CStr} {st st' : σ}
    {tr : List (Event (Sys.sum StoreSig))} {r : Int × ManagerResponse}
    (h : Exec B (managerClose L cfg sessionId) st tr r st')
    (hrc : r.1 = 0) (hstatus : r.2.statusCode = 200) :
    ∃ id s st₁ tr₁ tr₂, nonEmpty sessionId = some id ∧ B (.get (some id)) st tr₁ (some s) st₁ ∧
      B (.delete (some id)) st₁ tr₂ 0 st' := by
  unfold managerClose at h
  have hrefused {statusCode : Int} {text : CStr} {st₁ : σ} {tr₁} (hne : statusCode ≠ 200)
      (h : Exec B (sys (refuse statusCode text)) st₁ tr₁ r st') : False := by
    have hcode := Ensures.exec (Ensures.sys (ensures_refuse statusCode text)) h
    exact hne (hcode.2.symm.trans hstatus)
  cases hid : nonEmpty sessionId with
  | none =>
    rw [hid] at h
    exact (hrefused (by decide) h).elim
  | some id =>
    rw [hid] at h
    obtain ⟨tr₁, found, st₁, tr₂, rfl, hget, h₁⟩ := exec_bind.mp h
    obtain ⟨tr₃, rfl, hfound⟩ := exec_storeGet.mp hget
    cases found with
    | none => exact (hrefused (by decide) h₁).elim
    | some s =>
      refine ⟨id, s, st₁, tr₃, ?_⟩
      obtain ⟨tr₄, user, st₂, tr₅, rfl, huser, h₂⟩ := exec_bind.mp h₁
      obtain ⟨rfl, -⟩ := exec_lift.mp huser
      simp only at h₂
      split at h₂
      · obtain ⟨-, rfl, -⟩ := exec_pure.mp h₂
        cases hrc
      obtain ⟨tr₆, body, st₃, tr₇, rfl, hbody, h₃⟩ := exec_bind.mp h₂
      obtain ⟨rfl, -⟩ := exec_lift.mp hbody
      cases body with
      | none =>
        obtain ⟨-, rfl, -⟩ := exec_pure.mp h₃
        cases hrc
      | some body =>
        obtain ⟨tr₈, setCookie, st₄, tr₉, rfl, hcookie, h₄⟩ := exec_bind.mp h₃
        obtain ⟨rfl, -⟩ := exec_lift.mp hcookie
        obtain ⟨tr₁₀, rc, st₅, tr₁₁, rfl, hdelete, h₅⟩ := exec_bind.mp h₄
        obtain ⟨tr₁₂, rfl, hdeleted⟩ := exec_storeDelete.mp hdelete
        split at h₅
        · obtain ⟨-, rfl, -⟩ := exec_pure.mp h₅
          cases hrc
        · rename_i hzero
          obtain ⟨tr₁₃, u, st₆, tr₁₄, rfl, hemit, h₆⟩ := exec_bind.mp h₅
          obtain ⟨rfl, -⟩ := exec_lift.mp hemit
          obtain ⟨-, -, rfl⟩ := exec_pure.mp h₆
          rw [not_not.mp hzero] at hdeleted
          exact ⟨tr₁₂, rfl, hfound, hdeleted⟩

section

variable {L : Extern} {keyPrefix : CStr} {frames : Nat} {id : CStr} {log log' : RedisLog}

/-- A text that a session is found in is a session's text. -/
theorem redisGetText_some {delete : RedisProg Int} {json : CStr} {tr : List (Event (Sys.sum RedisSig))} {s : Session}
    (h : Exec redisLogged (redisGetText L delete json) log tr (some s) log') :
    log' = log ∧ ∃ d, storedSession L json = some d ∧ s.Resembles d := by
  unfold redisGetText at h
  obtain ⟨tr₁, b, log₁, tr₂, rfl, hmalloc, hrest⟩ := exec_bind.mp h
  obtain ⟨rfl, -⟩ := exec_lift.mp hmalloc
  cases b with
  | false =>
    obtain ⟨-, hnone, -⟩ := exec_pure.mp hrest
    cases hnone
  | true =>
    obtain ⟨tr₃, r, log₂, tr₄, rfl, hjson, hjudge⟩ := exec_bind.mp hrest
    obtain ⟨rfl, tr₅, rfl, hr⟩ := exec_lift.mp hjson
    by_cases hrc : r.1 = 0
    · simp only [ne_eq, hrc, not_true_eq_false, if_false] at hjudge
      obtain ⟨tr₆, expired, log₃, tr₇, rfl, hexpired, hfound⟩ := exec_bind.mp hjudge
      obtain ⟨rfl, -⟩ := exec_lift.mp hexpired
      cases expired with
      | true =>
        obtain ⟨tr₈, u, log₄, tr₉, rfl, -, hnone⟩ := exec_bind.mp hfound
        cases (exec_pure.mp hnone).2.1
      | false =>
        obtain ⟨-, hs, rfl⟩ := exec_pure.mp hfound
        obtain rfl := Option.some.inj hs
        have halloc := @onlyAllocates_sessionFromJson L json sessionInit
        exact ⟨rfl, (@returns_sessionFromJson 0 L json sessionInit).trace hr
          (fun e he x hx => nomatch (halloc.trace hr e he).symm.trans hx) hrc⟩
    · simp only [ne_eq, hrc, not_false_eq_true, if_true] at hjudge
      cases (exec_pure.mp hjudge).2.1

/-- A lookup that finds a session has read it at its key, and changed nothing. -/
theorem redisGet_some {tr : List (Event (Sys.sum RedisSig))} {s : Session}
    (h : Exec redisLogged (redisGet L keyPrefix frames id) log tr (some s) log') :
    log'.keyspace = log.keyspace ∧
      (∃ new, log'.carried = log.carried ++ new ∧ ∀ o ∈ new, o = .get (sessionKey keyPrefix id)) ∧
      ∃ d, readSession L log.keyspace (sessionKey keyPrefix id) = some d ∧ s.Resembles d := by
  cases frames with
  | zero =>
    obtain ⟨-, tr', -, ht⟩ := exec_lift.mp h
    obtain ⟨x, -⟩ := trace_op.mp ht
    cases x
  | succ frames =>
    rw [redisGet] at h
    obtain ⟨tr₁, key, log₁, tr₂, rfl, hkey, hrest⟩ := exec_bind.mp h
    obtain ⟨rfl, tr₃, rfl, hkeyed⟩ := exec_lift.mp hkey
    rcases trace_redisKey hkeyed with rfl | rfl
    · obtain ⟨tr₄, reply, log₂, tr₅, rfl, hcommand, hreply⟩ := exec_bind.mp hrest
      obtain ⟨tr₆, rfl, hserved⟩ := exec_call.mp hcommand
      unfold redisGetReply at hreply
      split at hreply
      · rename_i json
        obtain ⟨rfl, hd⟩ := redisGetText_some hreply
        obtain ⟨-, ⟨rfl, hanswer | ⟨r, hr, hanswer⟩⟩ | ⟨-, hanswer | hanswer⟩⟩ := hserved
        · cases hanswer
        · obtain rfl := Option.some.inj hanswer
          rw [Keyspace.answer, RedisReply.reorders_iff (log₁.keyspace.get_ne_array _)] at hr
          refine ⟨rfl, ⟨_, rfl, fun o ho => List.mem_singleton.mp ho⟩, ?_⟩
          unfold readSession
          rw [← hr]
          exact hd
        · cases hanswer
        · cases hanswer
      · cases (exec_pure.mp hreply).2.1
    · obtain ⟨-, hnone, -⟩ := exec_pure.mp hrest
      cases hnone

/-- No lookup finds the session. -/
def LookupFails (L : Extern) (keyPrefix id : CStr) (ks : Keyspace) : Prop :=
  ∀ frames tr found ks', Exec redisTrouble (redisGet L keyPrefix frames id) ks tr found ks' → found = none

theorem lookupFails_of_absent {ks : Keyspace} (h : ks (sessionKey keyPrefix id) = none) :
    LookupFails L keyPrefix id ks := by
  intro frames tr found ks' hget
  cases frames with
  | zero =>
    obtain ⟨-, tr', -, ht⟩ := exec_lift.mp hget
    obtain ⟨x, -⟩ := trace_op.mp ht
    cases x
  | succ frames =>
    rw [redisGet] at hget
    obtain ⟨tr₁, key, ks₁, tr₂, rfl, hkey, hrest⟩ := exec_bind.mp hget
    obtain ⟨rfl, tr₃, rfl, hkeyed⟩ := exec_lift.mp hkey
    rcases trace_redisKey hkeyed with rfl | rfl
    · obtain ⟨tr₄, reply, ks₂, tr₅, rfl, hcommand, hreply⟩ := exec_bind.mp hrest
      obtain ⟨tr₆, rfl, hserved⟩ := exec_call.mp hcommand
      obtain ⟨rfl, rfl, hreplied⟩ := redisTrouble_get hserved
      have hnil : ks₂.get (sessionKey keyPrefix id) = .nil := by simp [Keyspace.get, h]
      have hnone : redisGetReply L (redisDeleteWith (redisGet L keyPrefix frames) keyPrefix id) reply = pure none := by
        rw [hnil] at hreplied
        rcases hreplied with rfl | rfl | rfl <;> rfl
      rw [hnone] at hreply
      exact (exec_pure.mp hreply).2.1
    · exact (exec_pure.mp hrest).2.1

/-- A session that can be read is found while it has not expired. -/
theorem not_lookupFails {ks : Keyspace} {d : Session} (hread : readSession L ks (sessionKey keyPrefix id) = some d) :
    ¬ LookupFails L keyPrefix id ks := by
  intro h
  have hlive : ¬ HoldsExpired L ks d.expiresAt (sessionKey keyPrefix id) := by
    rintro ⟨d', hread', hexp⟩
    obtain rfl := Option.some.inj (hread.symm.trans hread')
    simp [Session.expiredAt] at hexp
  have htotal : Total (Steady d.expiresAt) redisServer (redisGet L keyPrefix 1 id) (fun found _ => found = some d) ks :=
    (total_redisGet_live hlive).mpr hread
  obtain ⟨tr, found, ks', hex, -, rfl⟩ := htotal.outcome fun o ks =>
    ⟨[], _, _, ⟨rfl, rfl, _, .refl _, rfl⟩, fun _ h => absurd h List.not_mem_nil⟩
  have hnone := h 1 tr _ ks' (hex.component fun _ _ _ _ _ hB => .inl (.inl hB))
  cases hnone

/-- **When a close that is answered 200 has ended the session**: exactly when the
server has carried out a `DEL` of its key. -/
theorem redisClose_truth {cfg : ManagerConfig} {sessionId : Option CStr} {ks : Keyspace}
    {tr : List (Event (Sys.sum RedisSig))}
    {r : Int × ManagerResponse}
    (h : Exec redisLogged ((managerClose L cfg sessionId).over (redisStore L keyPrefix frames)) ⟨ks, []⟩ tr r log')
    (hrc : r.1 = 0) (hstatus : r.2.statusCode = 200) :
    ∃ id, nonEmpty sessionId = some id ∧
      (LookupFails L keyPrefix id log'.keyspace ↔ .del (sessionKey keyPrefix id) ∈ log'.carried) := by
  obtain ⟨tr', hclose, -⟩ := exec_over h
  obtain ⟨id, s, log₁, tr₁, tr₂, hid, ⟨tr₃, hget, -⟩, ⟨tr₄, hdelete, -⟩⟩ := exec_close hclose hrc hstatus
  obtain ⟨hkeyspace, ⟨read, hread, hgets⟩, d, hd, -⟩ := redisGet_some hget
  obtain ⟨new, hnew, hkey⟩ := exec_sparesKey (allOps_redisDelete frames id id) hdelete
  refine ⟨id, hid, ?_⟩
  have hmem : .del (sessionKey keyPrefix id) ∈ log'.carried ↔ .del (sessionKey keyPrefix id) ∈ new := by
    rw [hnew, hread, List.nil_append, List.mem_append]
    refine or_iff_right fun hdel => ?_
    cases hgets _ hdel
  rw [hmem]
  rcases hkey with ⟨hdel, hnone⟩ | ⟨hdel, hsame⟩
  · exact iff_of_true (lookupFails_of_absent hnone) hdel
  · refine iff_of_false (not_lookupFails (d := d) ?_) hdel
    rw [readSession_congr (hsame.trans (congrFun hkeyspace _))]
    exact hd

end

/-- **When a deletion over Redis tells the truth**: redis_delete, exactly when the key was not
there, the server has carried out a `DEL` of it or there was no memory to issue one; a close
answered 200, exactly when the server has carried out the `DEL`. -/
theorem redis_delete_iff (L : Extern) (keyPrefix : CStr) (frames : Nat) (ks : Keyspace) :
    (∀ id tr rc log', Exec redisLogged (redisDelete L keyPrefix frames id) ⟨ks, []⟩ tr rc log' →
      ((rc = 0 → log'.keyspace (sessionKey keyPrefix id) = none) ↔
        ks (sessionKey keyPrefix id) = none ∨ .del (sessionKey keyPrefix id) ∈ log'.carried ∨
          KeyFails (sessionKey keyPrefix id) tr)) ∧
    ∀ cfg sessionId tr r log',
      Exec redisLogged ((managerClose L cfg sessionId).over (redisStore L keyPrefix frames)) ⟨ks, []⟩ tr r log' →
      r.1 = 0 → r.2.statusCode = 200 → ∃ id, nonEmpty sessionId = some id ∧
        (LookupFails L keyPrefix id log'.keyspace ↔ .del (sessionKey keyPrefix id) ∈ log'.carried) :=
  ⟨fun _ _ _ _ h => redisDelete_truth h, fun _ _ _ _ _ h hrc hstatus => redisClose_truth h hrc hstatus⟩

/-- A server that refuses some commands. -/
def refusing (refuses : RedisOp → Bool) (o : RedisOp) (log : RedisLog) : Option RedisReply × RedisLog :=
  if refuses o then (some .error, log) else (some (log.keyspace.answer o).1, log.carry o)

theorem refusing_logged (refuses : RedisOp → Bool) (o : RedisOp) (log : RedisLog) :
    redisLogged o log [] (refusing refuses o log).1 (refusing refuses o log).2 := by
  unfold refusing
  split
  · exact ⟨rfl, .inr ⟨rfl, .inr rfl⟩⟩
  · exact ⟨rfl, .inl ⟨rfl, .inr ⟨_, .refl _, rfl⟩⟩⟩

def deletesKey (key : CStr) : RedisOp → Bool
  | .del key' => key' == key
  | _ => false

theorem del_of_deletesKey {key : CStr} {carried : List RedisOp} (h : carried.any (deletesKey key) = true) :
    .del key ∈ carried := by
  obtain ⟨o, ho, hkey⟩ := List.any_eq_true.mp h
  cases o with
  | del key' =>
    obtain rfl := eq_of_beq hkey
    exact ho
  | _ => cases hkey

/-- The session "a" deleted, and closed, with nothing failing. -/
theorem redis_delete_carried : ∃ (L : Extern) (ks : Keyspace),
    (∃ tr log', Exec redisLogged (redisDelete L "dbsc" 1 "a") ⟨ks, []⟩ tr 0 log' ∧
      log'.keyspace (sessionKey "dbsc" "a") = none) ∧
    ∃ tr r log', Exec redisLogged ((managerClose L (plainConfig 60) (some ("a" : CStr))).over (redisStore L "dbsc" 1))
      ⟨ks, []⟩ tr r log' ∧ r.2.statusCode = 200 ∧ LookupFails L "dbsc" "a" log'.keyspace := by
  let L := Extern.knowing [plainObject "a" "u"] fun _ _ => false
  let ks := Keyspace.empty.write L "dbsc" "a" (plainSession "a" "u")
  let deleted := play (fun _ => runtimeEleven) (answering (refusing fun _ => false)) 0
    (redisDelete L "dbsc" 1 "a") ⟨ks, []⟩
  let closed := play (fun _ => runtimeEleven) (answering (refusing fun _ => false)) 0
    ((managerClose L (plainConfig 60) (some ("a" : CStr))).over (redisStore L "dbsc" 1)) ⟨ks, []⟩
  have hdeleted :
    (deleted.map fun r => (r.2.1, r.2.2.carried.any (deletesKey (sessionKey "dbsc" "a")))) = some (0, true) := by
    decide +kernel
  have hclosed : (closed.map fun r => (r.2.1.1, r.2.1.2.statusCode,
      r.2.2.carried.any (deletesKey (sessionKey "dbsc" "a")))) = some (0, 200, true) := by
    decide +kernel
  obtain ⟨⟨tr, rc, log'⟩, hplay, heq⟩ := Option.map_eq_some_iff.mp hdeleted
  obtain ⟨rfl, hdel⟩ := Prod.mk.inj heq
  obtain ⟨⟨tr', r, log''⟩, hplay', heq'⟩ := Option.map_eq_some_iff.mp hclosed
  obtain ⟨hrc, heq'⟩ := Prod.mk.inj heq'
  obtain ⟨hstatus, hdel'⟩ := Prod.mk.inj heq'
  have hexec := exec_answering (refusing_logged _) hplay
  have hexec' := exec_answering (refusing_logged _) hplay'
  have hiff := redis_delete_iff L "dbsc" 1 ks
  refine ⟨L, ks, ⟨tr, log', hexec, (hiff.1 _ _ _ _ hexec).mpr (.inr (.inl (del_of_deletesKey hdel))) rfl⟩,
    tr', r, log'', hexec', hstatus, ?_⟩
  obtain ⟨id, hid, hfails⟩ := hiff.2 _ _ _ _ _ hexec' hrc hstatus
  obtain rfl := Option.some.inj hid
  exact hfails.mpr (del_of_deletesKey hdel')

/-- The server refuses the `DEL`, and the deletion returns 0; so a close is answered 200 and
the session is still found. -/
theorem redis_delete_refused : ∃ (L : Extern) (ks : Keyspace),
    (∃ tr log', Exec redisLogged (redisDelete L "dbsc" 1 "a") ⟨ks, []⟩ tr 0 log' ∧
      log'.keyspace (sessionKey "dbsc" "a") ≠ none) ∧
    ∃ tr r log', Exec redisLogged ((managerClose L (plainConfig 60) (some ("a" : CStr))).over (redisStore L "dbsc" 1))
      ⟨ks, []⟩ tr r log' ∧ r.1 = 0 ∧ r.2.statusCode = 200 ∧ ¬ LookupFails L "dbsc" "a" log'.keyspace := by
  let L := Extern.knowing [plainObject "a" "u"] fun _ _ => false
  let ks := Keyspace.empty.write L "dbsc" "a" (plainSession "a" "u")
  let refuses := deletesKey (sessionKey "dbsc" "a")
  let deleted := play (fun _ => runtimeEleven) (answering (refusing refuses)) 0 (redisDelete L "dbsc" 1 "a") ⟨ks, []⟩
  let closed := play (fun _ => runtimeEleven) (answering (refusing refuses)) 0
    ((managerClose L (plainConfig 60) (some ("a" : CStr))).over (redisStore L "dbsc" 1)) ⟨ks, []⟩
  have hdeleted : (deleted.map fun r => (r.2.1, (r.2.2.keyspace (sessionKey "dbsc" "a")).isSome)) = some (0, true) := by
    decide +kernel
  have hclosed : (closed.map fun r => (r.2.1.1, r.2.1.2.statusCode,
      (readSession L r.2.2.keyspace (sessionKey "dbsc" "a")).isSome)) = some (0, 200, true) := by
    decide +kernel
  obtain ⟨⟨tr, rc, log'⟩, hplay, heq⟩ := Option.map_eq_some_iff.mp hdeleted
  obtain ⟨rfl, hthere⟩ := Prod.mk.inj heq
  obtain ⟨⟨tr', r, log''⟩, hplay', heq'⟩ := Option.map_eq_some_iff.mp hclosed
  obtain ⟨hrc, heq'⟩ := Prod.mk.inj heq'
  obtain ⟨hstatus, hread⟩ := Prod.mk.inj heq'
  obtain ⟨d, hd⟩ := Option.isSome_iff_exists.mp hread
  exact ⟨L, ks, ⟨tr, log', exec_answering (refusing_logged _) hplay, Option.isSome_iff_ne_none.mp hthere⟩,
    tr', r, log'', exec_answering (refusing_logged _) hplay', hrc, hstatus, not_lookupFails hd⟩

end OpenDbsc
