/-
What a manager call asks of the store, and when.

A call in flight has done part of its work. `Asks` says what it may come to
then: a lookup of its session, and at the end one write or one deletion. What
it writes comes from the copy it looked up and from what it drew itself
(`Renewing`, `Initiating`), whatever became of the store meanwhile. A call that
is granted has made its write (`granted_updates`) or its deletion.
-/
import OpenDbsc.Effects.Pool
import OpenDbsc.ManagerWrites

namespace OpenDbsc

open Effects Records Prog

/-! ## What a call has done when it writes -/

section

variable (L : Extern) (cfg : ManagerConfig)

/-- After `tr`, a call that brings a proof comes to write `s'`. -/
inductive Renewing (call : ManagerCall) (tr : List (Event (Sys.sum StoreSig))) (s' : Session) : Prop
  | mk {verdict id s s₁ bytes now} : call.verdict L cfg = some verdict → call.target = some id →
      answered (.get (some id)) (some s) ∈ tr → verdict s = .accept s₁ → Draws tr bytes →
      s' = ({ s₁ with challenge := some (challengeOf bytes) } : Session).withTtl cfg.sessionTtlSeconds now →
      Unwritten tr → Renewing call tr s'

/-- After `tr`, a login comes to write `s'`. -/
inductive Initiating (call : ManagerCall) (tr : List (Event (Sys.sum StoreSig))) (s' : Session) : Prop
  | mk {userId outSession id bytes createdAt now} : call = .initiate userId outSession → Draws tr bytes →
      s' = (freshSession id userId (challengeOf bytes) createdAt).withTtl cfg.sessionTtlSeconds now →
      Unwritten tr → Initiating call tr s'

/-- What a call may ask of the store after `tr`. -/
inductive Asks (call : ManagerCall) (tr : List (Event (Sys.sum StoreSig))) : StoreOp → Prop
  | looks {id} : call.target = some id → Asks call tr (.get (some id))
  | renews {s'} : Renewing L cfg call tr s' → Asks call tr (.update s')
  | initiates {s'} : Initiating cfg call tr s' → Asks call tr (.create s')
  | closes {id s} : call.kind = .close → call.target = some id → answered (.get (some id)) (some s) ∈ tr →
      Asks call tr (.delete (some id))

end

section

variable {L : Extern} {cfg : ManagerConfig} {tr : List (Event (Sys.sum StoreSig))} {o : StoreOp} {x : o.Ans}

/-- After its last call, a request makes no other. -/
theorem performs_sys_last {α β : Type} {p : Prog Sys α} {g : α → β} :
    ¬ Performs (sys p >>= fun a => (pure (g a) : Request β)) (tr ++ [answered o x]) := by
  intro h
  obtain ⟨tr₁, a, tr₂, -, -, hrest⟩ := performs_lift_bind h
  exact absurd (performs_pure.mp hrest) (by simp)

theorem performs_sys_undefined {α : Type} : ¬ Performs (sys undefinedBehavior : Request α) (tr ++ [answered o x]) := by
  intro h
  cases tr with
  | nil =>
    obtain ⟨y, -⟩ := performs_op.mp h
    exact Empty.elim y
  | cons e tr =>
    obtain ⟨y, -⟩ := performs_op.mp h
    exact Empty.elim y

/-- The call that is made is the one that comes next, or a later one. -/
theorem performs_storeCall {α : Type} {o' : StoreOp} {f : o'.Ans → Request α}
    (h : Performs (call (S := Sys) (T := StoreSig) o' >>= f) (tr ++ [answered o x])) :
    tr = [] ∧ o = o' ∨ ∃ y tr', tr = answered o' y :: tr' ∧ Performs (f y) (tr' ++ [answered o x]) := by
  cases tr with
  | nil =>
    obtain ⟨y, heq, -⟩ := performs_op.mp h
    cases heq
    exact .inl ⟨rfl, rfl⟩
  | cons e tr =>
    obtain ⟨y, rfl, hrest⟩ := performs_op.mp h
    exact .inr ⟨y, tr, rfl, hrest⟩

theorem performs_renew {type detail : CStr} {s : Session}
    (h : Performs (renew L cfg type detail s) (tr ++ [answered o x])) :
    ∃ bytes now, o = .update (({ s with challenge := some (challengeOf bytes) } : Session).withTtl cfg.sessionTtlSeconds now) ∧
      Draws tr bytes ∧ Unwritten tr := by
  obtain ⟨tr₁, bytes, _, rfl, hbytes, hrest⟩ := performs_lift_bind h
  obtain ⟨tr₂, s', tr₃, rfl, httl, hwrite⟩ := performs_lift_bind hrest
  obtain ⟨now, rfl, -⟩ := Trace.applySessionTtl httl
  rw [trace_getentropy] at hbytes
  subst hbytes
  rcases performs_storeCall hwrite with ⟨rfl, rfl⟩ | ⟨code, tr₄, -, hlast⟩
  · refine ⟨bytes, now, rfl, List.mem_cons_self, fun e he => ?_⟩
    rcases List.mem_append.mp he with he | he
    · exact unwritten_map_inl _ e he
    · exact unwritten_map_inl _ e ((List.append_nil _) ▸ he)
  · by_cases hcode : code ≠ 0
    · rw [if_pos hcode] at hlast
      exact absurd (performs_pure.mp hlast) (by simp)
    · rw [if_neg hcode] at hlast
      exact absurd hlast performs_sys_last

/-- What a request with a proof calls: first the lookup, then the write. -/
theorem performs_proofRequest {id : Option CStr} {missing : ManagerResponse} {verdict : Session → Verdict} {type : CStr}
    {detail : Session → CStr} (h : Performs (proofRequest L cfg id missing verdict type detail) (tr ++ [answered o x])) :
    (∃ id', nonEmpty id = some id' ∧ o = .get (some id') ∧ tr = []) ∨
    ∃ id' s s₁ bytes now, nonEmpty id = some id' ∧ answered (.get (some id')) (some s) ∈ tr ∧ verdict s = .accept s₁ ∧
      Draws tr bytes ∧ Unwritten tr ∧
      o = .update (({ s₁ with challenge := some (challengeOf bytes) } : Session).withTtl cfg.sessionTtlSeconds now) := by
  unfold proofRequest at h
  cases hid : nonEmpty id with
  | none =>
    simp only [hid] at h
    exact absurd (performs_pure.mp h) (by simp)
  | some id' =>
    simp only [hid] at h
    rcases performs_storeCall h with ⟨rfl, rfl⟩ | ⟨out, tr', rfl, hrest⟩
    · exact .inl ⟨id', rfl, rfl, rfl⟩
    · cases out with
      | none => exact absurd (performs_pure.mp hrest) (by simp)
      | some s =>
        simp only at hrest
        cases hv : verdict s with
        | reject resp =>
          rw [hv] at hrest
          exact absurd (performs_pure.mp hrest) (by simp)
        | undefined =>
          rw [hv] at hrest
          exact absurd hrest performs_sys_undefined
        | accept s₁ =>
          rw [hv] at hrest
          obtain ⟨bytes, now, rfl, hdraws, hquiet⟩ := performs_renew hrest
          refine .inr ⟨id', s, s₁, bytes, now, rfl, List.mem_cons_self, hv, List.mem_cons_of_mem _ hdraws, ?_, rfl⟩
          intro e he
          rcases List.mem_cons.mp he with rfl | he
          · exact not_false
          · exact hquiet e he

theorem performs_initiate {userId : CStr} {outSession : Option Session}
    (h : Performs ((managerInitiate L cfg userId outSession).assuming (onEnv allocOk)) (tr ++ [answered o x])) :
    ∃ id bytes createdAt now,
      o = .create ((freshSession id userId (challengeOf bytes) createdAt).withTtl cfg.sessionTtlSeconds now) ∧
      Draws tr bytes ∧ Unwritten tr := by
  rw [assuming_managerInitiate] at h
  obtain ⟨tr₁, id, tr', rfl, -, hid⟩ := performs_lift_bind h
  cases id with
  | none => exact absurd (performs_pure.mp hid) (by simp)
  | some id =>
    obtain ⟨tr₂, bytes, _, rfl, hbytes, hclock⟩ := performs_lift_bind hid
    obtain ⟨tr₃, createdAt, _, rfl, -, httl⟩ := performs_lift_bind hclock
    obtain ⟨tr₄, s', tr₅, rfl, hs', hwrite⟩ := performs_lift_bind httl
    obtain ⟨now, rfl, -⟩ := Trace.applySessionTtl hs'
    rw [trace_getentropy] at hbytes
    subst hbytes
    rcases performs_storeCall hwrite with ⟨rfl, rfl⟩ | ⟨code, tr₆, -, hlast⟩
    · refine ⟨id, bytes, createdAt, now, rfl, List.mem_append_right _ List.mem_cons_self, ?_⟩
      rw [List.append_nil, ← List.map_append, ← List.map_append, ← List.map_append]
      exact unwritten_map_inl _
    · by_cases hcode : code ≠ 0
      · rw [if_pos hcode] at hlast
        exact absurd (performs_pure.mp hlast) (by simp)
      · rw [if_neg hcode] at hlast
        exact absurd hlast performs_sys_last

theorem performs_close {sessionId : Option CStr}
    (h : Performs ((managerClose L cfg sessionId).assuming (onEnv allocOk)) (tr ++ [answered o x])) :
    ∃ id, nonEmpty sessionId = some id ∧
      (o = .get (some id) ∨ o = .delete (some id) ∧ ∃ s, answered (.get (some id)) (some s) ∈ tr) := by
  rw [assuming_managerClose] at h
  cases hid : nonEmpty sessionId with
  | none =>
    simp only [hid] at h
    exact absurd (performs_pure.mp h) (by simp)
  | some id =>
    simp only [hid] at h
    refine ⟨id, rfl, ?_⟩
    rcases performs_storeCall h with ⟨rfl, rfl⟩ | ⟨out, tr', rfl, hrest⟩
    · exact .inl rfl
    · cases out with
      | none => exact absurd (performs_pure.mp hrest) (by simp)
      | some s =>
        rcases performs_storeCall hrest with ⟨rfl, rfl⟩ | ⟨code, tr'', -, hlast⟩
        · exact .inr ⟨rfl, s, List.mem_cons_self⟩
        · by_cases hcode : code ≠ 0
          · rw [if_pos hcode] at hlast
            exact absurd (performs_pure.mp hlast) (by simp)
          · rw [if_neg hcode] at hlast
            exact absurd hlast performs_sys_last

/-- With the allocations left out, the same is asked. -/
theorem Asks.of_filter {call : ManagerCall}
    (h : Asks L cfg call (tr.filter fun e => (onEnv allocOk e.op).isNone) o) :
    Asks L cfg call tr o := by
  have hmem : ∀ {e}, e ∈ tr.filter (fun e => (onEnv allocOk e.op).isNone) → e ∈ tr := fun he => List.mem_of_mem_filter he
  have hquiet : Unwritten (tr.filter fun e => (onEnv allocOk e.op).isNone) → Unwritten tr := by
    intro hall e he hwrite
    refine hall e (List.mem_filter.mpr ⟨he, ?_⟩) hwrite
    obtain ⟨o | o, y⟩ := e
    · exact hwrite.elim
    · rfl
  cases h with
  | looks htarget => exact .looks htarget
  | renews h =>
    obtain ⟨hv, htarget, hget, haccept, hdraws, hs', hall⟩ := h
    exact .renews ⟨hv, htarget, hmem hget, haccept, hmem hdraws, hs', hquiet hall⟩
  | initiates h =>
    obtain ⟨hcall, hdraws, hs', hall⟩ := h
    exact .initiates ⟨hcall, hmem hdraws, hs', hquiet hall⟩
  | closes hkind htarget hget => exact .closes hkind htarget (hmem hget)

/-- **What a manager call asks of the store**, having done `tr` with its
allocations succeeding. -/
theorem performs_program {call : ManagerCall} (h : Performs (call.program L cfg) (tr ++ [answered o x]))
    (hobeys : Obeys (onEnv allocOk) tr) : Asks L cfg call tr o := by
  have hobeys' : Obeys (onEnv allocOk) (tr ++ [answered o x]) := by
    refine hobeys.append fun e he y hy => ?_
    obtain rfl := List.mem_singleton.mp he
    cases hy
  have h := h.assuming hobeys'
  rw [List.filter_append, List.filter_cons_of_pos rfl, List.filter_nil] at h
  refine Asks.of_filter ?_
  generalize (tr.filter fun e => (onEnv allocOk e.op).isNone) = tr at h ⊢
  have hproof : ∀ {id missing verdict type detail}, call.verdict L cfg = some verdict → call.target = nonEmpty id →
      Performs (replyOf <$> proofRequest L cfg id missing verdict type detail) (tr ++ [answered o x]) →
      Asks L cfg call tr o := by
    intro id missing verdict type detail hverdict htarget h
    rcases performs_proofRequest h.of_map with ⟨id', hid, rfl, rfl⟩ | ⟨id', s, s₁, bytes, now, hid, hget, hv, hdraws, hquiet, rfl⟩
    · exact .looks (htarget.trans hid)
    · exact .renews ⟨hverdict, htarget.trans hid, hget, hv, hdraws, rfl, hquiet⟩
  cases call with
  | initiate userId outSession =>
    have h := (assuming_bind _ _ ▸ h).of_bind fun a => ⟨_, rfl⟩
    obtain ⟨id, bytes, createdAt, now, rfl, hdraws, hquiet⟩ := performs_initiate h
    exact .initiates ⟨rfl, hdraws, rfl, hquiet⟩
  | register id header =>
    unfold ManagerCall.program at h
    rw [assuming_map, assuming_managerRegister] at h
    exact hproof rfl rfl h
  | refresh id header =>
    unfold ManagerCall.program at h
    rw [assuming_map, assuming_managerRefresh] at h
    exact hproof rfl rfl h
  | close id =>
    unfold ManagerCall.program at h
    rw [assuming_map] at h
    obtain ⟨id', hid, rfl | ⟨rfl, s, hget⟩⟩ := performs_close h.of_map
    · exact .looks hid
    · exact .closes rfl hid hget
  | getSession id =>
    unfold ManagerCall.program at h
    rw [assuming_bind, assuming_managerGetSession] at h
    rcases performs_storeCall h with ⟨rfl, rfl⟩ | ⟨y, tr', -, hrest⟩
    · exact .looks rfl
    · exact absurd (performs_pure.mp hrest) (by simp)

/-! ## What a call has done that is granted -/

theorem Renewed.granted {B : Comp Sys StoreSig Unit} {s : Session} {r : Int × ManagerResponse}
    (h : Renewed B L cfg s () tr r ()) (hok : (replyOf r).Ok) : ∃ s', answered (.update s') 0 ∈ tr := by
  cases h with
  | @mk bytes now s' tr₁ tr₂ tr₃ code =>
    by_cases hcode : code = 0
    · subst hcode
      exact ⟨s', by simp⟩
    · rw [if_neg hcode] at hok
      exact absurd hok.1 (show (-1 : Int) ≠ 0 by decide)

theorem ProofRequested.granted {B : Comp Sys StoreSig Unit} {call : ManagerCall} {id : Option CStr}
    {missing : ManagerResponse} {verdict : Session → Verdict} {r : Int × ManagerResponse}
    (hverdict : call.verdict L cfg = some verdict) (hmissing : missing.statusCode ≠ 200)
    (h : ProofRequested B L cfg id missing verdict () tr r ()) (hok : (replyOf r).Ok) :
    ∃ s', answered (.update s') 0 ∈ tr := by
  cases h with
  | missing => exact absurd hok.2 hmissing
  | absent => exact absurd hok (refusal_not_ok (by decide))
  | rejected _ _ hv =>
    rcases ManagerCall.verdict_reject hverdict hv with h400 | rfl
    · exact absurd (h400.symm.trans hok.2) (by decide)
    · exact absurd hok.2 (show (403 : Int) ≠ 200 by decide)
  | accepted _ _ _ hrenewed =>
    obtain ⟨s', hs'⟩ := hrenewed.granted hok
    exact ⟨s', List.mem_append_right _ (List.mem_cons_of_mem _ hs')⟩

/-- **A call with a proof that is granted** has written. -/
theorem granted_updates {call : ManagerCall} {reply : Reply} (htrace : Trace (call.program L cfg) tr reply)
    (hobeys : Obeys (onEnv allocOk) tr) (hok : reply.Ok) (hkind : call.kind = .register ∨ call.kind = .refresh) :
    ∃ s', answered (.update s') 0 ∈ tr := by
  have htrace := htrace.assuming hobeys
  suffices h : ∃ s', answered (.update s') 0 ∈ tr.filter fun e => (onEnv allocOk e.op).isNone from
    h.imp fun s' hs' => List.mem_of_mem_filter hs'
  cases call with
  | register id header =>
    unfold ManagerCall.program at htrace
    rw [assuming_map, assuming_managerRegister] at htrace
    obtain ⟨r, rfl, hr⟩ := trace_map.mp htrace
    have hverdict : (ManagerCall.register id header).verdict L cfg = some _ := rfl
    exact (exec_proofRequest hr.exec_anyComp).granted hverdict (by decide) hok
  | refresh id header =>
    unfold ManagerCall.program at htrace
    rw [assuming_map, assuming_managerRefresh] at htrace
    obtain ⟨r, rfl, hr⟩ := trace_map.mp htrace
    have hverdict : (ManagerCall.refresh id header).verdict L cfg = some _ := rfl
    exact (exec_proofRequest hr.exec_anyComp).granted hverdict (by decide) hok
  | _ => simp [ManagerCall.kind] at hkind

/-- A close call that is granted has looked its session up, and deleted it. -/
theorem granted_deletes {sessionId : Option CStr} {reply : Reply}
    (htrace : Trace ((ManagerCall.close sessionId).program L cfg) tr reply) (hobeys : Obeys (onEnv allocOk) tr)
    (hok : reply.Ok) : ∃ id, nonEmpty sessionId = some id ∧ answered (.delete (some id)) 0 ∈ tr := by
  have htrace := htrace.assuming hobeys
  unfold ManagerCall.program at htrace
  rw [assuming_map, assuming_managerClose] at htrace
  obtain ⟨r, rfl, hr⟩ := trace_map.mp htrace
  cases hid : nonEmpty sessionId with
  | none =>
    simp only [hid] at hr
    obtain ⟨-, rfl⟩ := trace_pure.mp hr
    exact absurd hok (refusal_not_ok (by decide))
  | some id =>
    simp only [hid] at hr
    obtain ⟨tr₁, out, tr₂, htr, -, hrest⟩ := trace_bind.mp hr
    cases out with
    | none =>
      obtain ⟨-, rfl⟩ := trace_pure.mp hrest
      exact absurd hok (refusal_not_ok (by decide))
    | some s =>
      obtain ⟨tr₃, code, tr₄, rfl, hdelete, hlast⟩ := trace_bind.mp hrest
      obtain rfl := trace_call.mp hdelete
      by_cases hcode : code ≠ 0
      · rw [if_pos hcode] at hlast
        obtain ⟨-, rfl⟩ := trace_pure.mp hlast
        exact absurd hok.1 (show (-1 : Int) ≠ 0 by decide)
      · obtain rfl := not_not.mp hcode
        have hmem : answered (.delete (some id)) 0 ∈ tr.filter fun e => (onEnv allocOk e.op).isNone := by
          rw [htr]
          exact List.mem_append_right _ List.mem_cons_self
        exact ⟨id, rfl, List.mem_of_mem_filter hmem⟩

end

end OpenDbsc
