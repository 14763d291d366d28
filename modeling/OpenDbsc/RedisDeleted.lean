/-
What a deletion is worth while other calls are under way.

A deleted session stays deleted as long as no update writes a session whose
key was deleted after the update had found it there (`redis_stays_deleted`).
An update that does brings the session back (`redis_resurrected`).
-/
import OpenDbsc.RedisPool

namespace OpenDbsc

open Effects Prog RedisPool

section

variable {ι : Type} {calls : ι → StoreOp}

/-- The session's key is deleted. -/
def Deletes (keyPrefix id : CStr) (t : Move calls) : Prop :=
  ∃ i reply, RedisPool.Replies t i (.del (sessionKey keyPrefix id)) reply ∧
    t.post.shared (sessionKey keyPrefix id) = none

/-- A `GET` finds the session. -/
def FindsText (keyPrefix id : CStr) (t : Move calls) : Prop :=
  ∃ i json, RedisPool.Replies t i (.get (sessionKey keyPrefix id)) (some (.string json))

/-- A create call writes the session. -/
def Creates (keyPrefix id : CStr) (t : Move calls) : Prop :=
  ∃ i s value ex reply, calls i = .create s ∧ s.id = some id ∧
    RedisPool.Replies t i (.set (sessionKey keyPrefix id) value ex) reply

/-- After a deletion the session is found only once a create call has written it. -/
def StaysDeleted (keyPrefix : CStr) (h : List (Move calls)) : Prop :=
  ∀ id h₁ td h₂ tg h₃, h = h₁ ++ td :: (h₂ ++ tg :: h₃) → Deletes keyPrefix id td → FindsText keyPrefix id tg →
    ∃ t ∈ h₂, Creates keyPrefix id t

/-- What an update is about to write, after `h`, was not deleted since the
update found it, or a create call has written it again. -/
def UpdatesUndeleted (keyPrefix : CStr) (h : List (Move calls)) (t : Move calls) : Prop :=
  ∀ i s id value ex reply, calls i = .update s → s.id = some id →
    RedisPool.Replies t i (.set (sessionKey keyPrefix id) value ex) reply →
    ∀ h₁ tg h₂ td h₃ json, h = h₁ ++ tg :: (h₂ ++ td :: h₃) →
      RedisPool.Replies tg i (.get (sessionKey keyPrefix id)) (some (.string json)) → Deletes keyPrefix id td →
      ∃ t' ∈ h₃, Creates keyPrefix id t'

end

section

variable {L : Extern} {keyPrefix : CStr} {ks ks' : Keyspace}

/-- A lookup that returns a session has found a text. -/
theorem redisGet_found {frames : Nat} {id : CStr} {tr s} (h : Trace (redisGet L keyPrefix frames id) tr (some s)) :
    ∃ json, replied (.get (sessionKey keyPrefix id)) (some (.string json)) ∈ tr := by
  cases frames with
  | zero =>
    obtain ⟨tr', -, h⟩ := trace_lift.mp h
    obtain ⟨x, -⟩ := trace_op.mp h
    cases x
  | succ frames =>
    rw [redisGet, trace_bind] at h
    obtain ⟨tr₁, key, tr₂, rfl, hkey, h⟩ := h
    obtain ⟨tr₁', rfl, hkey'⟩ := trace_lift.mp hkey
    rcases trace_redisKey hkey' with rfl | rfl
    · rw [trace_bind] at h
      obtain ⟨tr₃, reply, tr₄, rfl, hreply, h⟩ := h
      obtain rfl := trace_call.mp hreply
      unfold redisGetReply at h
      split at h
      · exact ⟨_, List.mem_append_right _ List.mem_cons_self⟩
      · cases (trace_pure.mp h).2
    · cases (trace_pure.mp h).2

/-- An update finds a text at the key before it writes there. -/
theorem redisUpdate_before {s : Session} {id : CStr} (hid : s.id = some id) (frames : Nat) :
    Before (fun e => ∃ json, e = replied (.get (sessionKey keyPrefix id)) (some (.string json)))
      (fun o => ∃ key value ex, o = .inr (.set key value ex)) (redisUpdate L keyPrefix frames s) := by
  have hget : AllOps (Commands fun o => ∀ key value ex, o ≠ .set key value ex) (redisGet L keyPrefix frames id) :=
    allOps_redisGet ⟨fun _ _ _ _ h => (nomatch h), fun _ _ _ _ h => (nomatch h),
      fun _ _ _ _ _ h => (nomatch h)⟩ frames id
  unfold redisUpdate
  simp only [hid]
  refine before_bind (hget.mono ?_).before fun tr found hfound => ?_
  · rintro o ho ⟨key, value, ex, rfl⟩
    exact ho key value ex rfl
  · cases found with
    | none => exact .inr (before_pure _)
    | some _ =>
      obtain ⟨json, hmem⟩ := redisGet_found hfound
      exact .inl ⟨_, hmem, json, rfl⟩

theorem redisConnection_keyspace {o tr reply} (h : redisConnection o ks tr reply ks') :
    ks' = ks ∨ ks' = (ks.answer o).2 := by
  rcases h with ⟨-, rfl, -⟩ | ⟨-, -, h⟩
  · exact .inr rfl
  · exact h

/-- Only a `SET` makes a session's key. -/
theorem answer_absent {op : StoreOp} {o : RedisOp} (hop : op.MayIssue keyPrefix o) {id : CStr}
    (habsent : ks (sessionKey keyPrefix id) = none) :
    (ks.answer o).2 (sessionKey keyPrefix id) = none ∨ ∃ value ex, o = .set (sessionKey keyPrefix id) value ex := by
  have hne := sessionKey_ne_userKey keyPrefix id
  cases o with
  | set key value ex =>
    by_cases hkey : sessionKey keyPrefix id = key
    · exact .inr ⟨value, ex, by rw [hkey]⟩
    · exact .inl ((Function.update_of_ne hkey _ _).trans habsent)
  | get key => exact .inl habsent
  | del key =>
    refine .inl ?_
    by_cases hkey : sessionKey keyPrefix id = key
    · rw [hkey]
      exact Function.update_self _ _ _
    · exact (Function.update_of_ne hkey _ _).trans habsent
  | sadd key member =>
    obtain ⟨s, -, -, rfl⟩ := hop
    exact .inl ((Keyspace.sadd_other _ _ (hne _)).trans habsent)
  | srem key member =>
    obtain ⟨userId, rfl⟩ := hop
    exact .inl ((Keyspace.srem_other _ _ (hne _)).trans habsent)
  | smembers key => exact .inl habsent

end

section

variable {ι : Type} [DecidableEq ι] {calls : ι → StoreOp} {L : Extern} {keyPrefix : CStr} {frames : Nat}
  {ks₀ : Keyspace}
  {h : List (Move calls)} {P : RedisPool calls}

/-- A run of the calls over a connection that may be lost, with keys expiring. -/
abbrev ConnectionRun (L : Extern) (keyPrefix : CStr) (frames : Nat) (ks₀ : Keyspace) (h : List (Move calls))
    (P : RedisPool calls) : Prop :=
  Run (Pool.Step redisConnection Keyspace.Evicts) (RedisPool.start L keyPrefix frames calls ks₀) h P

/-- An update's `SET` comes after its `GET` has found a text. -/
theorem update_found {h₁ t h₂} (hrun : ConnectionRun L keyPrefix frames ks₀ (h₁ ++ t :: h₂) P) {i s id}
    (hcall : calls i = .update s) (hid : s.id = some id) {key value ex reply}
    (ht : RedisPool.Replies t i (.set key value ex) reply) :
    ∃ tg ∈ h₁, ∃ json, RedisPool.Replies tg i (.get (sessionKey keyPrefix id)) (some (.string json)) := by
  have hb : Before (fun e => ∃ json, e = replied (.get (sessionKey keyPrefix id)) (some (.string json)))
      (fun o => ∃ key value ex, o = .inr (.set key value ex)) (redisStore L keyPrefix frames (calls i)) := by
    rw [hcall]
    exact redisUpdate_before hid frames
  obtain ⟨tg, htg, e, hlabel, json, rfl⟩ := Pool.before hrun ht hb ⟨key, value, ex, rfl⟩
  exact ⟨tg, htg, json, hlabel⟩

/-- While a session's key is absent it is not found, and only a `SET` brings it back. -/
theorem step_absent {P' : RedisPool calls} {l} (hs : Pool.Step redisConnection Keyspace.Evicts P l P')
    (hmay : ∀ i o reply, l = some (i, replied o reply) → (calls i).MayIssue keyPrefix o) {id : CStr}
    (habsent : P.shared (sessionKey keyPrefix id) = none) :
    ¬ FindsText keyPrefix id ⟨P, l, P'⟩ ∧ (P'.shared (sessionKey keyPrefix id) = none ∨
      ∃ i value ex reply, l = some (i, replied (.set (sessionKey keyPrefix id) value ex) reply)) := by
  cases hs with
  | self hevict =>
    refine ⟨?_, .inl ?_⟩
    · intro ⟨i, json, hreply⟩
      cases hreply
    · obtain ⟨hkey⟩ := hevict
      rename_i key value
      by_cases heq : sessionKey keyPrefix id = key
      · rw [heq]
        exact Function.update_self _ _ _
      · exact (Function.update_of_ne heq _ _).trans habsent
  | @thread i e p st hthread =>
    obtain ⟨o, x⟩ := e
    have heffect := hthread.effect
    cases o with
    | inl o =>
      refine ⟨?_, .inl ?_⟩
      · intro ⟨j, json, hreply⟩
        cases hreply
      · rw [show st = P.shared from heffect]
        exact habsent
    | inr o =>
      obtain ⟨tr, hcomp⟩ := heffect
      refine ⟨?_, ?_⟩
      · intro ⟨j, json, hreply⟩
        cases hreply
        rcases hcomp with ⟨-, -, r, hreorders, hr⟩ | ⟨-, hr, -⟩
        · cases hr
          unfold Keyspace.answer Keyspace.get at hreorders
          simp only [habsent] at hreorders
          cases hreorders
        · cases hr
      · rcases redisConnection_keyspace hcomp with rfl | rfl
        · exact .inl habsent
        · rcases answer_absent (hmay i o x rfl) habsent with hnone | ⟨value, ex, rfl⟩
          · exact .inl hnone
          · exact .inr ⟨i, value, ex, x, rfl⟩

/-- From a deletion on, until a create call writes the session, its key is
absent and no `GET` has found it. -/
theorem absent_until_created {id h₁ td h₂} (hrun : ConnectionRun L keyPrefix frames ks₀ (h₁ ++ td :: h₂) P)
    (hupd : Throughout (UpdatesUndeleted keyPrefix) (h₁ ++ td :: h₂)) (htd : Deletes keyPrefix id td)
    (hnew : ∀ t ∈ h₂, ¬ Creates keyPrefix id t) :
    P.shared (sessionKey keyPrefix id) = none ∧ ∀ t ∈ h₂, ¬ FindsText keyPrefix id t := by
  obtain ⟨hrun₁, hstep, hrun₂⟩ := Pool.transition hrun
  clear hrun
  induction hrun₂ with
  | init =>
    obtain ⟨i, reply, -, habsent⟩ := htd
    exact ⟨habsent, fun _ ht => (List.not_mem_nil ht).elim⟩
  | @step h₂ P l P' hrun₂ hs ih =>
    rw [← List.cons_append, ← List.append_assoc] at hupd
    obtain ⟨habsent, hnone⟩ := ih hupd.of_append fun t ht => hnew t (List.mem_append_left _ ht)
    have hlast := hnew _ (List.mem_append_right _ List.mem_cons_self)
    have hrun := (hrun₁.append (Run.cons hstep hrun₂)).step hs
    have hmem : ⟨P, l, P'⟩ ∈ h₁ ++ td :: h₂ ++ [⟨P, l, P'⟩] := List.mem_append_right _ List.mem_cons_self
    obtain ⟨hnot, hkey⟩ := step_absent hs (fun i o reply hl => mayIssue_of_run hrun hmem hl) habsent
    refine ⟨?_, ?_⟩
    · rcases hkey with hkey | ⟨i, value, ex, reply, rfl⟩
      · exact hkey
      · exfalso
        obtain ⟨s, id', hwritten, hid, hkey⟩ := mayIssue_of_run hrun hmem rfl
        obtain rfl := sessionKey_inj.mp hkey
        cases hcall : calls i with
        | create s' =>
          rw [hcall] at hwritten
          cases hwritten
          exact hlast ⟨i, s, value, ex, reply, hcall, hid, rfl⟩
        | update s' =>
          rw [hcall] at hwritten
          cases hwritten
          obtain ⟨tg, htg, json, hfound⟩ := update_found hrun hcall hid rfl
          rcases List.mem_append.mp htg with htg | htg
          · obtain ⟨g, g', rfl⟩ := List.append_of_mem htg
            have hsplit : g ++ tg :: g' ++ td :: h₂ = g ++ tg :: (g' ++ td :: h₂) := by simp
            obtain ⟨t', ht', hcreates⟩ :=
              hupd.last i s id value ex reply hcall hid rfl g tg g' td h₂ json hsplit hfound htd
            exact hnew t' (List.mem_append_left _ ht') hcreates
          · rcases List.mem_cons.mp htg with rfl | htg
            · obtain ⟨j, reply', hdel, -⟩ := htd
              cases hfound.symm.trans hdel
            · exact hnone tg htg ⟨i, json, hfound⟩
        | _ =>
          rw [hcall] at hwritten
          cases hwritten
    · intro t ht
      rcases List.mem_append.mp ht with ht | ht
      · exact hnone t ht
      · rw [List.mem_singleton.mp ht]
        exact hnot

/-- **A deleted session stays deleted.** In every run in which no update
writes a session that was deleted after it had been found there, a session
whose key was deleted is found again only once a create call has written it. -/
theorem redis_stays_deleted (hrun : ConnectionRun L keyPrefix frames ks₀ h P)
    (hupd : Throughout (UpdatesUndeleted keyPrefix) h) : StaysDeleted keyPrefix h := by
  intro id h₁ td h₂ tg h₃ hh hdel hfinds
  by_contra hnew
  subst hh
  have hsplit : h₁ ++ td :: (h₂ ++ tg :: h₃) = (h₁ ++ td :: (h₂ ++ [tg])) ++ h₃ := by simp
  rw [hsplit] at hrun hupd
  obtain ⟨P', hrun', -⟩ := hrun.of_append
  have hcreates : ∀ t ∈ h₂ ++ [tg], ¬ Creates keyPrefix id t := by
    intro t ht hcreates
    rcases List.mem_append.mp ht with ht | ht
    · exact hnew ⟨t, ht, hcreates⟩
    · obtain ⟨i, json, hget⟩ := hfinds
      obtain ⟨j, s, value, ex, reply, -, -, hset⟩ := hcreates
      rw [List.mem_singleton.mp ht] at hset
      cases hget.symm.trans hset
  have habsent := absent_until_created hrun' hupd.of_append hdel hcreates
  exact habsent.2 tg (List.mem_append_right _ List.mem_cons_self) hfinds

end

/-- An update of a session, its deletion, and a lookup of it. -/
def updateDuringDelete : Fin 3 → StoreOp
  | 0 => .update (plainSession "a" "u")
  | 1 => .delete (some "a".toList)
  | 2 => .get (some "a".toList)

def deletesA (t : Move updateDuringDelete) : Bool :=
  match t.label with
  | some (_, ⟨.inr (.del key), _⟩) => key == sessionKey "dbsc" "a" && (t.post.shared key).isNone
  | _ => false

theorem deletes_of_deletesA {t : Move updateDuringDelete} (h : deletesA t = true) : Deletes "dbsc" "a" t := by
  unfold deletesA at h
  split at h
  · rename_i i key reply hlabel
    rw [Bool.and_eq_true, beq_iff_eq, Option.isNone_iff_eq_none] at h
    obtain ⟨rfl, hnone⟩ := h
    exact ⟨i, reply, hlabel, hnone⟩
  · cases h

def findsA (t : Move updateDuringDelete) : Bool :=
  match t.label with
  | some (_, ⟨.inr (.get key), some (.string _)⟩) => key == sessionKey "dbsc" "a"
  | _ => false

theorem findsText_of_findsA {t : Move updateDuringDelete} (h : findsA t = true) : FindsText "dbsc" "a" t := by
  unfold findsA at h
  split at h
  · rename_i i key json hlabel
    rw [beq_iff_eq] at h
    subst h
    exact ⟨i, json, hlabel⟩
  · cases h

/-- The update is over before the deletion starts. -/
theorem redis_deleted_after_update : ∃ (L : Extern) (h : List (Move updateDuringDelete)) (P : RedisPool updateDuringDelete),
    ConnectionRun L "dbsc" 1 (Keyspace.empty.write L "dbsc" "a" (plainSession "a" "u")) h P ∧
    (∃ t ∈ h, Deletes "dbsc" "a" t) ∧ StaysDeleted "dbsc" h := by
  let L := Extern.knowing [plainObject "a" "u"] fun _ _ => false
  let P₀ : RedisPool updateDuringDelete :=
    RedisPool.start L "dbsc" 1 updateDuringDelete (Keyspace.empty.write L "dbsc" "a" (plainSession "a" "u"))
  let first := Pool.play (steadySys 0) steadyServer [0, 0, 0, 0] P₀
  let second := first.bind fun r => Pool.play (steadySys 0) steadyServer [1, 1, 1, 1, 2, 2] r.2
  have hfirst : (first.map fun r => r.1.any (RedisPool.answers RedisOp.isDel)) = some false := by decide +kernel
  have hsecond : (second.map fun r => (r.1.any deletesA, r.1.any (RedisPool.answers RedisOp.isSet))) =
    some (true, false) := by decide +kernel
  obtain ⟨⟨h₁, P₁⟩, hplay₁, hnodel⟩ := Option.map_eq_some_iff.mp hfirst
  obtain ⟨⟨h₂, P₂⟩, hplay₂, hsecond⟩ := Option.map_eq_some_iff.mp hsecond
  have hplay₂ : Pool.play (steadySys 0) steadyServer [1, 1, 1, 1, 2, 2] P₁ = some (h₂, P₂) := by
    rwa [show second = first.bind _ from rfl, hplay₁, Option.bind_some] at hplay₂
  obtain ⟨hdeleted, hnoset⟩ := Prod.ext_iff.mp hsecond
  obtain ⟨td, htd, hdel⟩ := List.any_eq_true.mp hdeleted
  have hrun : ConnectionRun L "dbsc" 1 _ (h₁ ++ h₂) P₂ :=
    (Pool.run_play steadyServer_connection hplay₁).append (Pool.run_play steadyServer_connection hplay₂)
  refine ⟨L, h₁ ++ h₂, P₂, hrun, ⟨td, List.mem_append_right _ htd, deletes_of_deletesA hdel⟩,
    redis_stays_deleted hrun ?_⟩
  intro g t g' hg i s id value ex reply _ _ hset g₁ tg g₂ td' g₃ json hsplit _ hdel'
  exfalso
  have hisSet : RedisPool.answers RedisOp.isSet t = true := hset.answers RedisOp.isSet
  have hisDel : RedisPool.answers RedisOp.isDel td' = true := by
    obtain ⟨j, reply', hdel', -⟩ := hdel'
    exact hdel'.answers RedisOp.isDel
  have hmem : td' ∈ g := by
    rw [hsplit]
    simp
  rcases List.append_eq_append_iff.mp hg with ⟨g₀, rfl, hg₂⟩ | ⟨g₀, rfl, hg₂⟩
  · have ht : t ∈ h₂ := hg₂ ▸ List.mem_append_right _ List.mem_cons_self
    exact List.any_eq_false.mp hnoset t ht hisSet
  · exact List.any_eq_false.mp hnodel td' (List.mem_append_left _ hmem) hisDel

/-- The update finds the session, the deletion deletes it and returns 0, and
the update writes it again. -/
theorem redis_resurrected : ∃ (L : Extern) (h₁ h₂ : List (Move updateDuringDelete)) (P₁ P₂ : RedisPool updateDuringDelete),
    ConnectionRun L "dbsc" 1 (Keyspace.empty.write L "dbsc" "a" (plainSession "a" "u")) h₁ P₁ ∧
    (∃ t ∈ h₁, Deletes "dbsc" "a" t) ∧ P₁.threads 1 = .ret (0 : Int) ∧
    Run (Pool.Step redisConnection Keyspace.Evicts) P₁ h₂ P₂ ∧
    (∃ t ∈ h₂, FindsText "dbsc" "a" t) ∧ P₂.threads 2 = .ret (some (plainSession "a" "u")) ∧
    (∀ i s, updateDuringDelete i ≠ .create s) ∧ ¬ StaysDeleted "dbsc" (h₁ ++ h₂) := by
  let L := Extern.knowing [plainObject "a" "u"] fun _ _ => false
  let P₀ : RedisPool updateDuringDelete :=
    RedisPool.start L "dbsc" 1 updateDuringDelete (Keyspace.empty.write L "dbsc" "a" (plainSession "a" "u"))
  let first := Pool.play (steadySys 0) steadyServer [0, 1, 1, 1, 1] P₀
  let second := first.bind fun r => Pool.play (steadySys 0) steadyServer [0, 0, 2, 2] r.2
  have hfirst : (first.map fun r => (r.1.any deletesA, (show Option Int from (r.2.threads 1).returned))) =
      some (true, some 0) := by
    decide +kernel
  have hsecond : (second.map fun r => (r.1.any findsA, (show Option (Option Session) from (r.2.threads 2).returned))) =
      some (true, some (some (plainSession "a" "u"))) := by
    decide +kernel
  obtain ⟨⟨h₁, P₁⟩, hplay₁, hfirst⟩ := Option.map_eq_some_iff.mp hfirst
  obtain ⟨⟨h₂, P₂⟩, hplay₂, hsecond⟩ := Option.map_eq_some_iff.mp hsecond
  have hplay₂ : Pool.play (steadySys 0) steadyServer [0, 0, 2, 2] P₁ = some (h₂, P₂) := by
    rwa [show second = first.bind _ from rfl, hplay₁, Option.bind_some] at hplay₂
  obtain ⟨hdeleted, hzero⟩ := Prod.ext_iff.mp hfirst
  obtain ⟨hfound, hsession⟩ := Prod.ext_iff.mp hsecond
  obtain ⟨td, htd, hdel⟩ := List.any_eq_true.mp hdeleted
  obtain ⟨tg, htg, hget⟩ := List.any_eq_true.mp hfound
  have hno : ∀ i s, updateDuringDelete i ≠ .create s := by
    intro i s h
    match i with
    | 0 => cases h
    | 1 => cases h
    | 2 => cases h
  refine ⟨L, h₁, h₂, P₁, P₂, Pool.run_play steadyServer_connection hplay₁, ⟨td, htd, deletes_of_deletesA hdel⟩,
    returned_eq_some hzero, Pool.run_play steadyServer_connection hplay₂, ⟨tg, htg, findsText_of_findsA hget⟩,
    returned_eq_some hsession, hno, fun hstays => ?_⟩
  obtain ⟨g₁, g₂, rfl⟩ := List.append_of_mem htd
  obtain ⟨g₃, g₄, rfl⟩ := List.append_of_mem htg
  obtain ⟨t, -, i, s, _, _, _, hcreate, -⟩ := hstays "a" g₁ td (g₂ ++ g₃) tg g₄ (by simp) (deletes_of_deletesA hdel)
    (findsText_of_findsA hget)
  exact hno i s hcreate

end OpenDbsc
