/-
The manager over the memory store, call after call.

`managerStep` is one call, answered in full before the next; a run is any
sequence of them from the empty store. `Outcome` lists what a call can have
done, in terms of the abstract store, and `managerStep_outcome` says there is
nothing else: every invariant of the runs is a case analysis of it.
-/
import OpenDbsc.Client
import OpenDbsc.ManagerTrace

namespace OpenDbsc

open Effects Records Prog

inductive ManagerCall where
  | initiate (userId : CStr) (outSession : Option Session)
  | register (cookieSessionId sessionResponseHeader : Option CStr)
  | refresh (sessionId sessionResponseHeader : Option CStr)
  | close (sessionId : Option CStr)
  | getSession (cookieSessionId : CStr)
  deriving DecidableEq

/-- A call's return code and what its out parameters hold. -/
structure Reply where
  rc : Int
  resp : ManagerResponse
  session : Option Session

def replyOf (r : Int × ManagerResponse) : Reply := ⟨r.1, r.2, none⟩

inductive CallKind where
  | initiate
  | register
  | refresh
  | close
  | getSession
  deriving DecidableEq

namespace ManagerCall

def kind : ManagerCall → CallKind
  | initiate .. => .initiate
  | register .. => .register
  | refresh .. => .refresh
  | close _ => .close
  | getSession _ => .getSession

def program (L : Extern) (cfg : ManagerConfig) : ManagerCall → Request Reply
  | initiate userId outSession => do
    let (rc, resp, session) ← managerInitiate L cfg userId outSession
    return ⟨rc, resp, session⟩
  | register id header => replyOf <$> managerRegister L cfg id header
  | refresh id header => replyOf <$> managerRefresh L cfg id header
  | close id => replyOf <$> managerClose L cfg id
  | getSession id => do
    let session ← managerGetSession id
    return ⟨if session = none then -1 else 0, managerResponseInit, session⟩

/-- The session id a call looks up. -/
def target : ManagerCall → Option CStr
  | initiate .. => none
  | register id _ => nonEmpty id
  | refresh id _ => nonEmpty id
  | close id => nonEmpty id
  | getSession id => some id

/-- The token of a call that brings a proof. -/
def token : ManagerCall → Option CStr
  | register _ header => nonEmpty header
  | refresh _ header => nonEmpty header
  | _ => none

/-- The challenge the call's token answers. -/
def answers (L : Extern) (call : ManagerCall) : Option CStr :=
  (call.token.bind (decodeProof L)).bind ProofJWT.challenge

/-- The verdict of a call that brings a proof. -/
def verdict (L : Extern) (cfg : ManagerConfig) : ManagerCall → Option (Session → Verdict)
  | register _ header => some (registerVerdict L cfg header)
  | refresh _ header => some (refreshVerdict L header)
  | _ => none

end ManagerCall

/-- A call, everything that happened in it, and its reply. -/
structure Handled where
  call : ManagerCall
  events : List (Event (Sys.sum StoreSig))
  reply : Reply

def managerStep (L : Extern) (cfg : ManagerConfig) (ms : MemoryStore) (l : Handled) (ms' : MemoryStore) : Prop :=
  Exec memory.comp (l.call.program L cfg) ms l.events l.reply ms'

abbrev ManagerRun (L : Extern) (cfg : ManagerConfig) := Run (managerStep L cfg) MemoryStore.empty

/-! ## What a call can have done -/

/-- The answer that grants what was asked. -/
def Reply.Ok (r : Reply) : Prop := r.rc = 0 ∧ r.resp.statusCode = 200

instance (r : Reply) : Decidable r.Ok := inferInstanceAs (Decidable (_ ∧ _))

/-- An initiate call answered with the cookie of `id`. -/
def Handled.Initiates (cfg : ManagerConfig) (l : Handled) (id : CStr) : Prop :=
  l.reply.Ok ∧ l.call.kind = .initiate ∧
    l.reply.resp.setCookie = some (setCookieText cfg (some id) cfg.cookieTtlSeconds)

/-- A register call on `id`, granted. -/
def Handled.Registers (l : Handled) (id : CStr) : Prop :=
  l.reply.Ok ∧ l.call.kind = .register ∧ l.call.target = some id

/-- A register or refresh call on `id`, granted. -/
def Handled.Renews (l : Handled) (id : CStr) : Prop :=
  l.reply.Ok ∧ (l.call.kind = .register ∨ l.call.kind = .refresh) ∧ l.call.target = some id

/-- A call that gives the session `id` a challenge. -/
def Handled.Issues (cfg : ManagerConfig) (l : Handled) (id : CStr) : Prop := l.Initiates cfg id ∨ l.Renews id

/-- A close call on `id`, granted. -/
def Handled.Closes (l : Handled) (id : CStr) : Prop :=
  l.reply.Ok ∧ l.call.kind = .close ∧ l.call.target = some id

instance (cfg : ManagerConfig) (l : Handled) (id : CStr) : Decidable (l.Initiates cfg id) :=
  inferInstanceAs (Decidable (_ ∧ _))

instance (l : Handled) (id : CStr) : Decidable (l.Registers id) := inferInstanceAs (Decidable (_ ∧ _))

instance (l : Handled) (id : CStr) : Decidable (l.Renews id) := inferInstanceAs (Decidable (_ ∧ _))

instance (cfg : ManagerConfig) (l : Handled) (id : CStr) : Decidable (l.Issues cfg id) :=
  inferInstanceAs (Decidable (_ ∨ _))

instance (l : Handled) (id : CStr) : Decidable (l.Closes id) := inferInstanceAs (Decidable (_ ∧ _))

/-- A call that grants something to the session `id`, or takes it away. -/
def Handled.Touches (cfg : ManagerConfig) (l : Handled) (id : CStr) : Prop :=
  l.Initiates cfg id ∨ l.Renews id ∨ l.Closes id

/-- The call looked `id` up and got `out`, between these clock readings. -/
def Handled.LooksUp (l : Handled) (id : CStr) (before : List Int) (out : Option Session) (after : List Int) : Prop :=
  l.call.target = some id ∧ notes l.events = before.map .reading ++ .lookup (some id) out :: after.map .reading

section

variable (L : Extern) (cfg : ManagerConfig) (m : SessionMap) (l : Handled)

/-- What becomes of a session that was found. -/
inductive Treated (s : Session) : List Int → SessionMap → Prop
  | shown {id} : l.call = .getSession id → l.reply = ⟨0, managerResponseInit, some s⟩ → Treated s [] m
  | rejected {verdict resp} : l.call.verdict L cfg = some verdict → verdict s = .reject resp →
      l.reply = replyOf (0, resp) → Treated s [] m
  | renewed {verdict s₁ bytes now s'} : l.call.verdict L cfg = some verdict → verdict s = .accept s₁ →
      Draws l.events bytes →
      s' = ({ s₁ with challenge := some (challengeOf bytes) } : Session).withTtl cfg.sessionTtlSeconds now →
      l.reply = replyOf (0, renewedResponse L cfg s') → Treated s (ttlReadings cfg.sessionTtlSeconds now) (m.insert s')
  | closed {sessionId} : l.call = .close sessionId → l.reply = replyOf (0, closedResponse L cfg s) →
      Treated s [] (m.erase s.id)

/-- What a call can have done. -/
inductive Outcome : SessionMap → Prop
  | idle : notes l.events = [] → ¬ l.reply.Ok → Outcome m
  | absent {id before} : l.LooksUp id before none [] → m.lookup (some id) = none → ¬ l.reply.Ok → Outcome m
  | expired {id before s now} : l.LooksUp id before none [] → m.lookup (some id) = some s → s.hasExpires = true →
      now ∈ before → s.expiresAt < now → ¬ l.reply.Ok → Outcome (m.erase (some id))
  | found {id before s after m'} : l.LooksUp id before (some s) after → m.lookup (some id) = some s →
      (s.hasExpires = true → ∃ now ∈ before, now ≤ s.expiresAt) → Treated L cfg m l s after m' → Outcome m'
  | initiated {userId outSession id bytes createdAt now s} : l.call = .initiate userId outSession →
      notes l.events = (createdAt :: ttlReadings cfg.sessionTtlSeconds now).map .reading → Draws l.events bytes →
      s = (freshSession id userId (challengeOf bytes) createdAt).withTtl cfg.sessionTtlSeconds now →
      l.reply = ⟨0, initiatedResponse cfg s, outSession.map fun _ => s⟩ → Outcome (m.insert s)

end

theorem ManagerCall.verdict_reject {L : Extern} {cfg : ManagerConfig} {call : ManagerCall}
    {verdict : Session → Verdict} {s : Session} {resp : ManagerResponse} (hv : call.verdict L cfg = some verdict)
    (h : verdict s = .reject resp) : resp.statusCode = 400 ∨ resp = challengeResponse s := by
  cases call with
  | register id header =>
    cases hv
    rcases registerVerdict_eq_reject h with rfl | h
    · exact .inl rfl
    · exact .inr h
  | refresh id header =>
    cases hv
    rcases refreshVerdict_eq_reject h with rfl | h
    · exact .inl rfl
    · exact .inr h
  | _ => cases hv

/-- An accepted session keeps what identifies it, and is bound. -/
theorem ManagerCall.verdict_accept {L : Extern} {cfg : ManagerConfig} {call : ManagerCall}
    {verdict : Session → Verdict} {s s₁ : Session} (hv : call.verdict L cfg = some verdict)
    (h : verdict s = .accept s₁) :
    s₁.id = s.id ∧ s₁.userId = s.userId ∧ s₁.createdAt = s.createdAt ∧ s₁.state = .bound := by
  cases call with
  | register id header =>
    cases hv
    obtain ⟨-, token, proof, -, -, -, -, -, rfl⟩ := registerVerdict_eq_accept.mp h
    exact ⟨rfl, rfl, rfl, rfl⟩
  | refresh id header =>
    cases hv
    obtain ⟨hstate, token, key, proof, -, -, -, -, -, rfl⟩ := refreshVerdict_eq_accept.mp h
    exact ⟨rfl, rfl, rfl, hstate⟩
  | _ => cases hv

/-- What is registered was active. -/
theorem ManagerCall.verdict_register {L : Extern} {cfg : ManagerConfig} {call : ManagerCall}
    {verdict : Session → Verdict} {s s₁ : Session} (hv : call.verdict L cfg = some verdict)
    (hkind : call.kind = .register) (h : verdict s = .accept s₁) : s.state = .active := by
  cases call with
  | register id header =>
    cases hv
    exact (registerVerdict_eq_accept.mp h).1
  | _ => cases hkind

/-- An accepted token answers the session's challenge. -/
theorem ManagerCall.verdict_answers {L : Extern} {cfg : ManagerConfig} {call : ManagerCall}
    {verdict : Session → Verdict} {s s₁ : Session} (hv : call.verdict L cfg = some verdict)
    (h : verdict s = .accept s₁) : ∃ challenge, call.answers L = some challenge ∧ s.challenge = some challenge := by
  cases call with
  | register id header =>
    cases hv
    obtain ⟨-, token, proof, htoken, hproof, -, ⟨challenge, hp, hs⟩, -⟩ := registerVerdict_eq_accept.mp h
    refine ⟨challenge, ?_, hs⟩
    rw [answers, ManagerCall.token, htoken, Option.bind_some, hproof, Option.bind_some, hp]
  | refresh id header =>
    cases hv
    obtain ⟨-, token, key, proof, htoken, -, hproof, -, ⟨challenge, hp, hs⟩, -⟩ := refreshVerdict_eq_accept.mp h
    refine ⟨challenge, ?_, hs⟩
    rw [answers, ManagerCall.token, htoken, Option.bind_some, hproof, Option.bind_some, hp]
  | _ => cases hv

theorem ManagerCall.verdict_kind {L : Extern} {cfg : ManagerConfig} {call : ManagerCall}
    {verdict : Session → Verdict} (hv : call.verdict L cfg = some verdict) :
    call.kind = .register ∨ call.kind = .refresh := by
  cases call with
  | register => exact .inl rfl
  | refresh => exact .inr rfl
  | _ => cases hv

/-! ## The abstract store's answers -/

section

variable {m m' : SessionMap} {tr : List (Event Sys)}

theorem SessionMap.store_get {id : CStr} {out : Option Session} (h : SessionMap.store (.get (some id)) m tr out m') :
    (out = none ∧ m' = m ∧ m.lookup (some id) = none) ∨
    (∃ s, out = none ∧ m' = m.erase (some id) ∧ m.lookup (some id) = some s ∧ s.hasExpires = true ∧
      ∃ now ∈ readings tr, s.expiresAt < now) ∨
    (∃ s, out = some s ∧ m' = m ∧ m.lookup (some id) = some s ∧
      (s.hasExpires = true → ∃ now ∈ readings tr, now ≤ s.expiresAt)) := by
  obtain ⟨-, now, hnow, hans⟩ := h
  cases hl : m.lookup (some id) with
  | none =>
    simp only [Answers, hl] at hans
    exact .inl ⟨hans.1, hans.2, rfl⟩
  | some s =>
    have hread := hnow s (Table.lookup_mem hl) (Table.lookup_key hl)
    simp only [Answers, hl] at hans
    by_cases hexp : s.expiredAt (now s) = true
    · rw [if_pos hexp] at hans
      simp only [Session.expiredAt, Bool.and_eq_true, decide_eq_true_eq] at hexp
      exact .inr (.inl ⟨s, hans.1, hans.2, rfl, hexp.1, now s, hread hexp.1, hexp.2⟩)
    · rw [if_neg hexp] at hans
      refine .inr (.inr ⟨s, hans.1, hans.2, rfl, fun he => ⟨now s, hread he, ?_⟩⟩)
      simp only [Session.expiredAt, he, Bool.true_and, decide_eq_true_eq] at hexp
      omega

theorem SessionMap.store_create {s : Session} {code : Int} (hs : s.id ≠ none)
    (h : SessionMap.store (.create s) m tr code m') : readings tr = [] ∧ code = 0 ∧ m' = m.insert s := by
  obtain ⟨hquiet, now, -, hans⟩ := h
  refine ⟨hquiet fun _ => not_false, ?_⟩
  cases hid : s.id with
  | none => exact absurd hid hs
  | some id => simpa only [Answers, hid] using hans

theorem SessionMap.store_update {s s₀ : Session} {code : Int} (hs : m.lookup s.id = some s₀)
    (h : SessionMap.store (.update s) m tr code m') : readings tr = [] ∧ code = 0 ∧ m' = m.insert s := by
  obtain ⟨hquiet, now, -, hans⟩ := h
  refine ⟨hquiet fun _ => not_false, ?_⟩
  simpa only [Answers, hs] using hans

theorem SessionMap.store_delete {id : Option CStr} {code : Int} (h : SessionMap.store (.delete id) m tr code m') :
    readings tr = [] ∧ code = 0 ∧ m' = m.erase id := by
  obtain ⟨hquiet, now, -, hans⟩ := h
  exact ⟨hquiet fun _ => not_false, hans⟩

end

/-! ## Every call has an outcome -/

@[simp] theorem Session.withTtl_id (s : Session) (ttlSeconds now : Int) : (s.withTtl ttlSeconds now).id = s.id := by
  unfold withTtl
  split <;> rfl

/-- Renewing changes neither what identifies a session nor what it is bound to. -/
theorem Session.withTtl_keeps (s : Session) (ttlSeconds now : Int) :
    (s.withTtl ttlSeconds now).userId = s.userId ∧ (s.withTtl ttlSeconds now).state = s.state ∧
      (s.withTtl ttlSeconds now).publicKey = s.publicKey ∧ (s.withTtl ttlSeconds now).algorithm = s.algorithm ∧
      (s.withTtl ttlSeconds now).challenge = s.challenge ∧ (s.withTtl ttlSeconds now).createdAt = s.createdAt := by
  unfold withTtl
  split <;> exact ⟨rfl, rfl, rfl, rfl, rfl, rfl⟩

section

variable {L : Extern} {cfg : ManagerConfig} {m m' : SessionMap} {tr : List (Event (Sys.sum StoreSig))} {reply : Reply}

theorem Handled.looksUp {l : Handled} {id : CStr} {out : Option Session} {tr₁ : List (Event Sys)}
    {tr₂ : List (Event (Sys.sum StoreSig))} {after : List Int} (htarget : l.call.target = some id)
    (hevents : l.events = tr₁.map Event.inl ++ [answered (.get (some id)) out] ++ tr₂)
    (hafter : notes tr₂ = after.map .reading) : l.LooksUp id (readings tr₁) out after := by
  refine ⟨htarget, ?_⟩
  rw [hevents, notes_append, notes_append, notes_map_inl, hafter, List.append_assoc]
  rfl

theorem Handled.LooksUp.reading {l : Handled} {id : CStr} {before after : List Int} {out : Option Session}
    (h : l.LooksUp id before out after)
    {now : Int} (hnow : now ∈ before) : now ∈ clockReadings l.events := by
  unfold clockReadings
  rw [h.2, List.filterMap_append, clockReadingOf_map]
  exact List.mem_append_left _ hnow

theorem refusal_not_ok {statusCode : Int} {text : CStr} (h : statusCode ≠ 200) :
    ¬ (replyOf (0, refusal statusCode text)).Ok := fun hok => h hok.2

theorem outcome_proofRequest {call : ManagerCall} {verdict : Session → Verdict} {id : Option CStr}
    {missing : ManagerResponse} {r : Int × ManagerResponse} (htarget : call.target = nonEmpty id)
    (hverdict : call.verdict L cfg = some verdict) (hmissing : missing.statusCode ≠ 200)
    (h : ProofRequested SessionMap.store L cfg id missing verdict m tr r m') :
    Outcome L cfg m ⟨call, tr, replyOf r⟩ m' := by
  cases h with
  | missing hid => exact .idle rfl fun hok => hmissing hok.2
  | @absent id' tr₁ _ hid hB =>
    have hlooks : Handled.LooksUp ⟨call, tr₁.map Event.inl ++ [answered (.get (some id')) none],
        replyOf (0, refusal 401 "\"invalid session\"")⟩ id' (readings tr₁) none [] :=
      Handled.looksUp (htarget.trans hid) (List.append_nil _).symm rfl
    have hok : ¬ (replyOf (0, refusal 401 "\"invalid session\"")).Ok := refusal_not_ok (by decide)
    rcases SessionMap.store_get hB with ⟨-, rfl, hl⟩ | ⟨s, -, rfl, hl, hexp, now, hnow, hlt⟩ | ⟨s, hs, -⟩
    · exact .absent hlooks hl hok
    · exact .expired hlooks hl hexp hnow hlt hok
    · cases hs
  | @rejected id' tr₁ s resp _ hid hB hv =>
    rcases SessionMap.store_get hB with ⟨hs, -⟩ | ⟨s, hs, -⟩ | ⟨_, hs, rfl, hl, hlive⟩
    · cases hs
    · cases hs
    · cases hs
      exact .found (Handled.looksUp (htarget.trans hid) (List.append_nil _).symm rfl) hl hlive
        (.rejected hverdict hv rfl)
  | @accepted id' tr₁ s s₁ st₁ tr₂ _ _ hid hB hv hrenewed =>
    rcases SessionMap.store_get hB with ⟨hs, -⟩ | ⟨s, hs, -⟩ | ⟨_, hs, rfl, hl, hlive⟩
    · cases hs
    · cases hs
    cases hs
    cases hrenewed with
    | @mk bytes now s' trDraw trStore trEvent code _ hs' hdraws hread hquiet hupdate =>
      have hid' : s'.id = some id' := by
        rw [hs', Session.withTtl_id]
        exact ((ManagerCall.verdict_accept hverdict hv).1).trans (Table.lookup_key hl)
      obtain ⟨hstore, rfl, rfl⟩ := SessionMap.store_update (hid' ▸ hl) hupdate
      refine .found (Handled.looksUp (htarget.trans hid) (List.append_cons ..) ?_) hl hlive
        (.renewed hverdict hv ?_ hs' rfl)
      · simp only [notes_append, notes_map_inl, notes_update, hread, hstore, hquiet, List.map_nil,
          List.append_nil]
      · exact List.mem_append_right _ (List.mem_cons_of_mem _ (List.mem_append_left _ hdraws))

theorem outcome_initiate {userId : CStr} {outSession : Option Session}
    (h : Exec SessionMap.store (((ManagerCall.initiate userId outSession).program L cfg).assuming (onEnv allocOk)) m tr
      reply m') : Outcome L cfg m ⟨.initiate userId outSession, tr, reply⟩ m' := by
  simp only [ManagerCall.program, assuming_bind, assuming_managerInitiate, bind_assoc, assuming_pure] at h
  obtain ⟨_, id, _, _, rfl, h₁, h₂⟩ := exec_bind.mp h
  obtain ⟨rfl, trNew, rfl, hnew⟩ := exec_sys.mp h₁
  have hquiet := Trace.sessionNewId hnew
  cases id with
  | none =>
    simp only [pure_bind] at h₂
    obtain ⟨rfl, rfl, rfl⟩ := exec_pure.mp h₂
    refine .idle ?_ fun hok => Int.neg_ne_zero.mpr Int.one_ne_zero hok.1
    simp only [List.append_nil, notes_map_inl, hquiet, List.map_nil]
  | some id =>
    simp only [bind_assoc, exec_bind, exec_sys, trace_getentropy, trace_time] at h₂
    obtain ⟨_, bytes, _, _, rfl, ⟨rfl, _, rfl, rfl⟩, _, createdAt, _, _, rfl, ⟨rfl, _, rfl, rfl⟩, h₃⟩ := h₂
    obtain ⟨_, s, _, _, rfl, ⟨rfl, trTtl, rfl, httl⟩, _, code, _, _, rfl, hcreate, h₄⟩ := h₃
    obtain ⟨now, hs, hread⟩ := Trace.applySessionTtl httl
    have hid : s.id ≠ none := by
      rw [hs, Session.withTtl_id]
      exact Option.some_ne_none id
    obtain ⟨trCreate, rfl, hB⟩ := exec_storeCreate.mp hcreate
    obtain ⟨hstore, rfl, rfl⟩ := SessionMap.store_create hid hB
    simp only [ne_eq, not_true_eq_false, if_false, exec_bind, exec_sys, exec_pure] at h₄
    obtain ⟨_, _, _, _, rfl, ⟨_, _, _, _, rfl, ⟨rfl, trEvent, rfl, hevent⟩, rfl, rfl, rfl⟩, rfl, rfl, rfl⟩ := h₄
    refine .initiated rfl ?_ ?_ hs rfl
    · have hdraw : readings [⟨.getentropy 32, bytes⟩] = [] := rfl
      have htime : readings [⟨.time, createdAt⟩] = [createdAt] := rfl
      have hcalled : notes [answered (.create s) 0] = [] := rfl
      simp only [notes_append, hcalled]
      rw [notes_map_inl, notes_map_inl, notes_map_inl, notes_map_inl, notes_map_inl, notes_map_inl, hquiet, hdraw,
        htime, hread, hstore, Trace.emitEvent hevent]
      simp only [notes_nil, List.map_nil, List.map_cons, List.nil_append, List.append_nil, List.singleton_append]
    · exact List.mem_append_right _ (List.mem_append_left _ List.mem_cons_self)

theorem outcome_close {sessionId : Option CStr} {r : Int × ManagerResponse}
    (h : Exec SessionMap.store ((managerClose L cfg sessionId).assuming (onEnv allocOk)) m tr r m') :
    Outcome L cfg m ⟨.close sessionId, tr, replyOf r⟩ m' := by
  rw [assuming_managerClose] at h
  cases hid : nonEmpty sessionId with
  | none =>
    simp only [hid] at h
    obtain ⟨rfl, rfl, rfl⟩ := exec_pure.mp h
    exact .idle rfl (refusal_not_ok (by decide))
  | some id =>
    simp only [hid] at h
    obtain ⟨_, out, m₁, tr₂, rfl, hget, h₁⟩ := exec_bind.mp h
    obtain ⟨tr₁, rfl, hB⟩ := exec_storeGet.mp hget
    rcases SessionMap.store_get hB with ⟨rfl, rfl, hl⟩ | ⟨s, rfl, rfl, hl, hexp, now, hnow, hlt⟩ |
      ⟨s, rfl, rfl, hl, hlive⟩
    · obtain ⟨rfl, rfl, rfl⟩ := exec_pure.mp h₁
      exact .absent (Handled.looksUp hid rfl rfl) hl (refusal_not_ok (by decide))
    · obtain ⟨rfl, rfl, rfl⟩ := exec_pure.mp h₁
      exact .expired (Handled.looksUp hid rfl rfl) hl hexp hnow hlt (refusal_not_ok (by decide))
    · obtain ⟨_, code, m₂, _, rfl, hdelete, h₂⟩ := exec_bind.mp h₁
      obtain ⟨trDelete, rfl, hB⟩ := exec_storeDelete.mp hdelete
      obtain ⟨hstore, rfl, rfl⟩ := SessionMap.store_delete hB
      simp only [ne_eq, not_true_eq_false, if_false, exec_bind, exec_sys, exec_pure] at h₂
      obtain ⟨_, _, _, _, rfl, ⟨rfl, trEvent, rfl, hevent⟩, rfl, rfl, rfl⟩ := h₂
      have herase : m₁.erase (some id) = m₁.erase s.id := by rw [Table.lookup_key hl]
      rw [herase]
      refine .found (Handled.looksUp hid rfl ?_) hl hlive (.closed rfl rfl)
      simp [hstore, Trace.emitEvent hevent]

theorem outcome_getSession {id : CStr} {out : Option Session} (h : Exec SessionMap.store (storeGet id) m tr out m') :
    Outcome L cfg m ⟨.getSession id, tr, ⟨if out = none then -1 else 0, managerResponseInit, out⟩⟩ m' := by
  obtain ⟨tr₁, rfl, hB⟩ := exec_storeGet.mp h
  have hlooks : Handled.LooksUp ⟨.getSession id, tr₁.map Event.inl ++ [answered (.get (some id)) out],
      ⟨if out = none then -1 else 0, managerResponseInit, out⟩⟩ id (readings tr₁) out [] :=
    Handled.looksUp rfl (List.append_nil _).symm rfl
  have hok : ¬ Reply.Ok ⟨if out = none then -1 else 0, managerResponseInit, out⟩ :=
    fun hok => absurd (show (0 : Int) = 200 from hok.2) (by decide)
  rcases SessionMap.store_get hB with ⟨rfl, rfl, hl⟩ | ⟨s, rfl, rfl, hl, hexp, now, hnow, hlt⟩ |
    ⟨s, rfl, rfl, hl, hlive⟩
  · exact .absent hlooks hl hok
  · exact .expired hlooks hl hexp hnow hlt hok
  · exact .found hlooks hl hlive (.shown rfl rfl)

/-- A call that brings a proof is a request with one. -/
theorem exec_verdict {call : ManagerCall} {verdict : Session → Verdict} (hv : call.verdict L cfg = some verdict)
    (h : Exec SessionMap.store ((call.program L cfg).assuming (onEnv allocOk)) m tr reply m') :
    ∃ r id missing, call.target = nonEmpty id ∧ reply = replyOf r ∧
      (missing.statusCode ≠ 200 ∧ missing.statusCode ≠ 403) ∧
        ProofRequested SessionMap.store L cfg id missing verdict m tr r m' := by
  cases call with
  | register id header =>
    cases hv
    simp only [ManagerCall.program, assuming_map, assuming_managerRegister] at h
    obtain ⟨r, rfl, h₁⟩ := exec_map.mp h
    exact ⟨r, id, _, rfl, rfl, by decide, exec_proofRequest h₁⟩
  | refresh id header =>
    cases hv
    simp only [ManagerCall.program, assuming_map, assuming_managerRefresh] at h
    obtain ⟨r, rfl, h₁⟩ := exec_map.mp h
    exact ⟨r, id, _, rfl, rfl, by decide, exec_proofRequest h₁⟩
  | _ => cases hv

theorem outcome_exec {call : ManagerCall}
    (h : Exec SessionMap.store ((call.program L cfg).assuming (onEnv allocOk)) m tr reply m') :
    Outcome L cfg m ⟨call, tr, reply⟩ m' := by
  cases call with
  | initiate userId outSession => exact outcome_initiate h
  | register id header =>
    obtain ⟨r, id', missing, htarget, rfl, hmissing, h₁⟩ := exec_verdict rfl h
    exact outcome_proofRequest htarget rfl hmissing.1 h₁
  | refresh id header =>
    obtain ⟨r, id', missing, htarget, rfl, hmissing, h₁⟩ := exec_verdict rfl h
    exact outcome_proofRequest htarget rfl hmissing.1 h₁
  | close id =>
    simp only [ManagerCall.program, assuming_map] at h
    obtain ⟨r, rfl, h₁⟩ := exec_map.mp h
    exact outcome_close h₁
  | getSession id =>
    simp only [ManagerCall.program, assuming_bind, assuming_managerGetSession, assuming_pure] at h
    obtain ⟨_, out, m₁, _, rfl, h₁, h₂⟩ := exec_bind.mp h
    obtain ⟨rfl, rfl, rfl⟩ := exec_pure.mp h₂
    rw [List.append_nil]
    exact outcome_getSession h₁

end

/-- An outcome is about what a call saw alone. -/
theorem Outcome.of_saw {L : Extern} {cfg : ManagerConfig} {m m' : SessionMap} {l l' : Handled}
    (h : Outcome L cfg m l m') (hcall : l.call = l'.call) (hreply : l.reply = l'.reply)
    (hnotes : notes l.events = notes l'.events) (hevents : ∀ e ∈ l.events, e ∈ l'.events) :
    Outcome L cfg m l' m' := by
  have hdraws : ∀ {bytes}, Draws l.events bytes → Draws l'.events bytes := hevents _
  have hlooks : ∀ {id before out after}, l.LooksUp id before out after → l'.LooksUp id before out after := by
    intro id before out after hl
    exact ⟨hcall ▸ hl.1, hnotes ▸ hl.2⟩
  cases h with
  | idle hn hok => exact .idle (hnotes ▸ hn) (hreply ▸ hok)
  | absent hl hm hok => exact .absent (hlooks hl) hm (hreply ▸ hok)
  | expired hl hm hexp hnow hlt hok => exact .expired (hlooks hl) hm hexp hnow hlt (hreply ▸ hok)
  | found hl hm hlive ht =>
    refine .found (hlooks hl) hm hlive ?_
    cases ht with
    | shown hc hr => exact .shown (hcall ▸ hc) (hreply ▸ hr)
    | rejected hc hv hr => exact .rejected (hcall ▸ hc) hv (hreply ▸ hr)
    | renewed hc hv hd hs hr => exact .renewed (hcall ▸ hc) hv (hdraws hd) hs (hreply ▸ hr)
    | closed hc hr => exact .closed (hcall ▸ hc) (hreply ▸ hr)
  | initiated hc hn hd hs hr => exact .initiated (hcall ▸ hc) (hnotes ▸ hn) (hdraws hd) hs (hreply ▸ hr)

/-- **Every call has an outcome** on the map the memory store stands for. -/
theorem managerStep_outcome {L : Extern} {cfg : ManagerConfig} {ms ms' : MemoryStore} {m : SessionMap} {l : Handled}
    (h : managerStep L cfg ms l ms') (halloc : Obeys (onEnv allocOk) l.events) (hR : ms.Represents m) :
    ∃ m', ms'.Represents m' ∧ Outcome L cfg m l m' := by
  obtain ⟨m', hex, hR'⟩ := Exec.refine (fun hR hB ho => hR.call hB ho) h halloc hR
  exact ⟨m', hR', (outcome_exec hex).of_saw rfl rfl (notes_filter _) fun _ he => (List.mem_filter.mp he).1⟩

theorem notes_split {before before' : List Int} {id id' : Option CStr} {out out' : Option Session} {ns ns' : List Note}
    (h : before.map Note.reading ++ .lookup id out :: ns = before'.map Note.reading ++ .lookup id' out' :: ns') :
    before = before' ∧ out = out' := by
  induction before generalizing before' with
  | nil =>
    cases before' with
    | nil =>
      simp only [List.map_nil, List.nil_append, List.cons.injEq, Note.lookup.injEq] at h
      exact ⟨rfl, h.1.2⟩
    | cons => simp at h
  | cons x before ih =>
    cases before' with
    | nil => simp at h
    | cons y before' =>
      simp only [List.map_cons, List.cons_append, List.cons.injEq, Note.reading.injEq] at h
      obtain ⟨hbefore, hout⟩ := ih h.2
      exact ⟨by rw [h.1, hbefore], hout⟩

/-- A call looks up once. -/
theorem Handled.LooksUp.unique {l : Handled} {id id' : CStr} {before before' after after' : List Int}
    {out out' : Option Session} (h : l.LooksUp id before out after) (h' : l.LooksUp id' before' out' after') :
    id = id' ∧ before = before' ∧ out = out' :=
  ⟨Option.some.inj (h.1.symm.trans h'.1), notes_split (h.2.symm.trans h'.2)⟩

theorem Handled.LooksUp.notes_ne {l : Handled} {id : CStr} {before after : List Int} {out : Option Session}
    (h : l.LooksUp id before out after) (readings : List Int) : notes l.events ≠ readings.map .reading := by
  intro hnotes
  have hmem : Note.lookup (some id) out ∈ readings.map Note.reading := by
    rw [← hnotes, h.2]
    exact List.mem_append_right _ List.mem_cons_self
  obtain ⟨_, -, heq⟩ := List.mem_map.mp hmem
  cases heq

/-- **What a lookup finds.** -/
theorem Outcome.of_looksUp {L : Extern} {cfg : ManagerConfig} {m m' : SessionMap} {l : Handled} {id : CStr}
    {before after : List Int} {out : Option Session} (ho : Outcome L cfg m l m') (h : l.LooksUp id before out after) :
    (out = none ∧ m' = m ∧ m.lookup (some id) = none) ∨
    (∃ s, out = none ∧ m' = m.erase (some id) ∧ m.lookup (some id) = some s ∧ s.hasExpires = true ∧
      ∃ now ∈ before, s.expiresAt < now) ∨
    (∃ s, out = some s ∧ m.lookup (some id) = some s ∧ (s.hasExpires = true → ∃ now ∈ before, now ≤ s.expiresAt)) := by
  cases ho with
  | idle hnotes => exact absurd hnotes (h.notes_ne [])
  | initiated _ hnotes => exact absurd hnotes (h.notes_ne _)
  | absent hlooks hl =>
    obtain ⟨rfl, -, rfl⟩ := h.unique hlooks
    exact .inl ⟨rfl, rfl, hl⟩
  | expired hlooks hl hexp hnow hlt =>
    obtain ⟨rfl, rfl, rfl⟩ := h.unique hlooks
    exact .inr (.inl ⟨_, rfl, rfl, hl, hexp, _, hnow, hlt⟩)
  | found hlooks hl hlive =>
    obtain ⟨rfl, rfl, rfl⟩ := h.unique hlooks
    exact .inr (.inr ⟨_, rfl, hl, hlive⟩)

/-- The call's lookup of `id`, if it comes to one, reads the clock before `s` expires. -/
def Handled.InTime (l : Handled) (id : CStr) (s : Session) : Prop :=
  ∀ before out after, l.LooksUp id before out after → ∀ now ∈ before, s.expiredAt now = false

/-- **The verdict decides.** A call with a proof, on a session that is there and
in time, rejects it and changes nothing, or accepts it and grants the call. -/
theorem managerStep_verdict {L : Extern} {cfg : ManagerConfig} {ms ms' : MemoryStore} {m : SessionMap} {l : Handled}
    {id : CStr} {s : Session} {verdict : Session → Verdict} (hstep : managerStep L cfg ms l ms')
    (halloc : Obeys (onEnv allocOk) l.events) (hR : ms.Represents m) (htarget : l.call.target = some id)
    (hcall : l.call.verdict L cfg = some verdict) (hl : m.lookup (some id) = some s) (htime : l.InTime id s) :
    (∃ resp, verdict s = .reject resp ∧ l.reply = replyOf (0, resp) ∧ (ms'.sessions : Multiset Session) = ms.sessions) ∨
      ∃ s₁, verdict s = .accept s₁ ∧ l.reply.Ok := by
  obtain ⟨m', hex, hR'⟩ := Exec.refine (fun hR hB ho => hR.call hB ho) hstep halloc hR
  have hnotes := notes_filter l.events
  generalize l.events.filter _ = tr at hex hnotes
  obtain ⟨r, sessionId, missing, hid, hreply, -, hreq⟩ := exec_verdict hcall hex
  rw [htarget] at hid
  cases hreq with
  | missing hnone => rw [hnone] at hid; cases hid
  | @absent id' tr₁ _ hsome hB =>
    cases hid.trans hsome
    rcases SessionMap.store_get hB with ⟨-, -, hnone⟩ | ⟨s', -, -, hl', hexp, now, hnow, hlt⟩ | ⟨_, hout, -⟩
    · rw [hl] at hnone; cases hnone
    · cases hl.symm.trans hl'
      have hlooks : l.LooksUp id (readings tr₁) none [] := by
        refine ⟨htarget, ?_⟩
        rw [← hnotes, notes_append, notes_map_inl]
        rfl
      have hle := Session.expiredAt_eq_false.mp (htime _ _ _ hlooks now hnow) hexp
      omega
    · cases hout
  | @rejected id' tr₁ s' resp _ hsome hB hv =>
    cases hid.trans hsome
    rcases SessionMap.store_get hB with ⟨hout, -⟩ | ⟨_, hout, -⟩ | ⟨_, hout, rfl, hl', -⟩
    · cases hout
    · cases hout
    · cases hout
      cases hl.symm.trans hl'
      exact .inl ⟨resp, hv, hreply, hR'.lists.trans hR.lists.symm⟩
  | @accepted id' tr₁ s' s₁ m₁ tr₂ _ _ hsome hB hv hrenewed =>
    cases hid.trans hsome
    rcases SessionMap.store_get hB with ⟨hout, -⟩ | ⟨_, hout, -⟩ | ⟨_, hout, rfl, hl', -⟩
    · cases hout
    · cases hout
    cases hout
    cases hl.symm.trans hl'
    refine .inr ⟨s₁, hv, ?_⟩
    cases hrenewed with
    | @mk bytes now s₂ _ _ _ code _ hs₂ _ _ _ hupdate =>
      have hid₂ : s₂.id = some id := by
        rw [hs₂, Session.withTtl_id]
        exact ((ManagerCall.verdict_accept hcall hv).1).trans (Table.lookup_key hl)
      obtain ⟨-, rfl, -⟩ := SessionMap.store_update (hid₂ ▸ hl) hupdate
      rw [hreply]
      exact ⟨rfl, rfl⟩

/-- What a call can have done to the session of one id. -/
inductive Fate (L : Extern) (cfg : ManagerConfig) (m : SessionMap) (l : Handled) (m' : SessionMap) (id : CStr) : Prop
  | kept : ¬ l.Touches cfg id → m'.lookup (some id) = m.lookup (some id) → Fate L cfg m l m' id
  | expired {before s now} : ¬ l.Touches cfg id → l.LooksUp id before none [] → m.lookup (some id) = some s →
      s.hasExpires = true → now ∈ before → s.expiresAt < now → m'.lookup (some id) = none → Fate L cfg m l m' id
  | renewed {before s verdict s₁ bytes now s'} : l.Renews id →
      l.LooksUp id before (some s) (ttlReadings cfg.sessionTtlSeconds now) → m.lookup (some id) = some s →
      l.call.verdict L cfg = some verdict → verdict s = .accept s₁ → Draws l.events bytes →
      s' = ({ s₁ with challenge := some (challengeOf bytes) } : Session).withTtl cfg.sessionTtlSeconds now →
      l.reply = replyOf (0, renewedResponse L cfg s') → m'.lookup (some id) = some s' → Fate L cfg m l m' id
  | closed {before s} : l.Closes id → l.LooksUp id before (some s) [] → m.lookup (some id) = some s →
      m'.lookup (some id) = none → Fate L cfg m l m' id
  | initiated {userId bytes createdAt now s} : l.Initiates cfg id →
      notes l.events = (createdAt :: ttlReadings cfg.sessionTtlSeconds now).map .reading → Draws l.events bytes →
      s = (freshSession id userId (challengeOf bytes) createdAt).withTtl cfg.sessionTtlSeconds now →
      l.reply.resp = initiatedResponse cfg s → m'.lookup (some id) = some s → Fate L cfg m l m' id

theorem Handled.Closes.not_issues (cfg : ManagerConfig) {l : Handled} {id : CStr} (h : l.Closes id) :
    ¬ l.Issues cfg id := by
  intro hissues
  rcases hissues with hi | ⟨-, hk | hk, -⟩
  · have hk := hi.2.1
    rw [h.2.1] at hk
    cases hk
  · rw [h.2.1] at hk
    cases hk
  · rw [h.2.1] at hk
    cases hk

theorem Handled.Initiates.not_renews {cfg : ManagerConfig} {l : Handled} {id : CStr} (h : l.Initiates cfg id) :
    ¬ l.Renews id := by
  intro hrenews
  rcases hrenews.2.1 with hk | hk <;> rw [h.2.1] at hk <;> cases hk

theorem Handled.Touches.ok {cfg : ManagerConfig} {l : Handled} {id : CStr} (h : l.Touches cfg id) : l.reply.Ok := by
  rcases h with h | h | h <;> exact h.1

/-- A call with a session of its own touches no other. -/
theorem Handled.Touches.target {cfg : ManagerConfig} {l : Handled} {id id' : CStr} (h : l.Touches cfg id)
    (htarget : l.call.target = some id') : id = id' := by
  rcases h with h | h | h
  · obtain ⟨-, hkind, -⟩ := h
    cases hc : l.call <;> rw [hc] at hkind htarget <;> cases hkind
    cases htarget
  · exact Option.some.inj (h.2.2.symm.trans htarget)
  · exact Option.some.inj (h.2.2.symm.trans htarget)

theorem setCookieText_id {cfg : ManagerConfig} {maxAge : Int} {id id' : CStr}
    (h : setCookieText cfg (some id) maxAge = setCookieText cfg (some id') maxAge) : id = id' := by
  simp only [setCookieText, List.append_assoc, List.append_cancel_left_eq] at h
  exact List.append_cancel_right h

/-- An initiate call touches the session it makes alone. -/
theorem Handled.Touches.initiated {cfg : ManagerConfig} {l : Handled} {id id' : CStr} (h : l.Touches cfg id)
    (hkind : l.call.kind = .initiate)
    (hcookie : l.reply.resp.setCookie = some (setCookieText cfg (some id') cfg.cookieTtlSeconds)) : id = id' := by
  rcases h with h | h | h
  · exact setCookieText_id (Option.some.inj (h.2.2.symm.trans hcookie))
  · rcases h.2.1 with hk | hk <;> rw [hkind] at hk <;> cases hk
  · have hk := h.2.1
    rw [hkind] at hk
    cases hk

theorem Outcome.fate {L : Extern} {cfg : ManagerConfig} {m m' : SessionMap} {l : Handled}
    (ho : Outcome L cfg m l m') (id : CStr) : Fate L cfg m l m' id := by
  cases ho with
  | idle _ hok => exact .kept (fun h => hok h.ok) rfl
  | absent _ _ hok => exact .kept (fun h => hok h.ok) rfl
  | @expired id' before s now hlooks hl hexp hnow hlt hok =>
    by_cases hid : id = id'
    · subst hid
      exact .expired (fun h => hok h.ok) hlooks hl hexp hnow hlt (Table.lookup_erase_self m _)
    · exact .kept (fun h => hok h.ok) (Table.lookup_erase_of_ne (by simpa using hid))
  | @found id' before s after _ hlooks hl _ ht =>
    have hkey := Table.lookup_key hl
    cases ht with
    | shown _ hreply =>
      refine .kept (fun h => ?_) rfl
      have hok := h.ok
      rw [hreply] at hok
      exact absurd hok.2 (show ¬ (0 : Int) = 200 by decide)
    | rejected hcall hreject hreply =>
      refine .kept (fun h => ?_) rfl
      have hok := h.ok.2
      rw [hreply] at hok
      rcases ManagerCall.verdict_reject hcall hreject with h400 | rfl
      · exact absurd (h400.symm.trans hok) (by decide)
      · exact absurd (show (403 : Int) = 200 from hok) (by decide)
    | @renewed verdict s₁ bytes now s' hcall haccept hdraws hs' hreply =>
      have hid' : s'.id = some id' := by
        rw [hs', Session.withTtl_id]
        exact ((ManagerCall.verdict_accept hcall haccept).1).trans hkey
      by_cases hid : id = id'
      · subst hid
        have hok : l.reply.Ok := by rw [hreply]; exact ⟨rfl, rfl⟩
        refine .renewed ⟨hok, ManagerCall.verdict_kind hcall, hlooks.1⟩ hlooks hl hcall haccept hdraws hs' hreply ?_
        rw [← hid']
        exact Table.lookup_insert_self m s'
      · exact .kept (fun h => hid (h.target hlooks.1)) (Table.lookup_insert_of_ne (by simpa [hid'] using hid))
    | closed hcall hreply =>
      rw [hkey]
      by_cases hid : id = id'
      · subst hid
        have hok : l.reply.Ok := by rw [hreply]; exact ⟨rfl, rfl⟩
        exact .closed ⟨hok, congrArg ManagerCall.kind hcall, hlooks.1⟩ hlooks hl (Table.lookup_erase_self m _)
      · exact .kept (fun h => hid (h.target hlooks.1)) (Table.lookup_erase_of_ne (by simpa using hid))
  | @initiated userId outSession id' bytes createdAt now s hcall hnotes hdraws hs hreply =>
    have hid' : s.id = some id' := by rw [hs, Session.withTtl_id]; rfl
    have hinit : l.Initiates cfg id' := by
      rw [Handled.Initiates, hcall, hreply, ← hid']
      exact ⟨⟨rfl, rfl⟩, rfl, rfl⟩
    by_cases hid : id = id'
    · subst hid
      refine .initiated hinit hnotes hdraws hs (congrArg Reply.resp hreply) ?_
      rw [← hid']
      exact Table.lookup_insert_self m s
    · refine .kept (fun h => hid (h.initiated hinit.2.1 hinit.2.2)) ?_
      exact Table.lookup_insert_of_ne (by simpa [hid'] using hid)

/-! ## Invariants of runs -/

/-- Every allocation of the run succeeded. -/
def Allocates (h : List (Transition MemoryStore Handled)) : Prop := ∀ t ∈ h, Obeys (onEnv allocOk) t.label.events

theorem Allocates.of_append {h₁ h₂ : List (Transition MemoryStore Handled)} (halloc : Allocates (h₁ ++ h₂)) :
    Allocates h₁ ∧ Allocates h₂ :=
  ⟨fun t ht => halloc t (List.mem_append_left _ ht), fun t ht => halloc t (List.mem_append_right _ ht)⟩

/-- **Invariants of runs.** What every outcome keeps holds of the map the
store stands for, wherever a run started. -/
theorem Run.outcomes {L : Extern} {cfg : ManagerConfig} {P : List (Transition MemoryStore Handled) → SessionMap → Prop}
    {h : List (Transition MemoryStore Handled)} {ms₀ ms : MemoryStore} {m₀ : SessionMap}
    (hrun : Run (managerStep L cfg) ms₀ h ms) (halloc : Allocates h) (hR₀ : ms₀.Represents m₀) (hinit : P [] m₀)
    (hstep : ∀ {h ms m l ms' m'}, ms.Represents m → P h m → Outcome L cfg m l m' → ms'.Represents m' →
      P (h ++ [⟨ms, l, ms'⟩]) m') : ∃ m, ms.Represents m ∧ P h m := by
  induction hrun with
  | init => exact ⟨m₀, hR₀, hinit⟩
  | step _ hs ih =>
    obtain ⟨halloc₁, halloc₂⟩ := halloc.of_append
    obtain ⟨m, hR, hP⟩ := ih halloc₁
    obtain ⟨m', hR', ho⟩ := managerStep_outcome hs (halloc₂ _ List.mem_cons_self) hR
    exact ⟨m', hR', hstep hR hP ho hR'⟩

/-- A run leaves a store that stands for a map. -/
theorem ManagerRun.represents {L : Extern} {cfg : ManagerConfig} {h : List (Transition MemoryStore Handled)}
    {ms : MemoryStore} (hrun : ManagerRun L cfg h ms) (halloc : Allocates h) : ∃ m, ms.Represents m := by
  obtain ⟨m, hR, -⟩ := Run.outcomes (P := fun _ _ => True) hrun halloc MemoryStore.Represents.empty trivial
    fun _ _ _ _ => trivial
  exact ⟨m, hR⟩

/-! ## Playing runs -/

/-- A runtime with memory enough, its clock at `now` and its entropy all `byte`s, if there is any. -/
def runtimeAt (now : Int) (byte : Option UInt8) (_ : Nat) : (o : Sys.Op) → Option (Sys.Ans o)
  | .time => some now
  | .clockGettime => some (some (now.toNat, 0))
  | .getentropy n => some (byte.map fun b => ⟨List.replicate n b, List.length_replicate⟩)
  | .malloc _ => some true
  | .library => some true
  | .onEvent .. => some ()
  | .undefined => none

theorem runtimeAt_allocOk {now : Int} {byte : Option UInt8} (n : Nat) (o : Sys.Op) (x : Sys.Ans o)
    (h : allocOk o = some x) : runtimeAt now byte n o = some x := by
  cases o <;> first | exact h | cases h

/-- The calls in turn, each with its clock and its entropy. -/
def playCalls (L : Extern) (cfg : ManagerConfig) : List (Int × Option UInt8 × ManagerCall) → MemoryStore →
    Option (List (Transition MemoryStore Handled) × MemoryStore)
  | [], ms => some ([], ms)
  | (now, byte, call) :: rest, ms => do
    let (tr, reply, ms') ← play (runtimeAt now byte) memory 0 (call.program L cfg) ms
    let (h, ms'') ← playCalls L cfg rest ms'
    some (⟨ms, ⟨call, tr, reply⟩, ms'⟩ :: h, ms'')

theorem run_playCalls {L : Extern} {cfg : ManagerConfig} {steps} {ms₀ ms ms' : MemoryStore}
    {h₀ h : List (Transition MemoryStore Handled)} (hrun : Run (managerStep L cfg) ms₀ h₀ ms) (halloc : Allocates h₀)
    (hplay : playCalls L cfg steps ms = some (h, ms')) :
    Run (managerStep L cfg) ms₀ (h₀ ++ h) ms' ∧ Allocates (h₀ ++ h) := by
  induction steps generalizing ms h₀ h with
  | nil =>
    simp only [playCalls, Option.some.injEq, Prod.mk.injEq] at hplay
    obtain ⟨rfl, rfl⟩ := hplay
    rw [List.append_nil]
    exact ⟨hrun, halloc⟩
  | cons step steps ih =>
    obtain ⟨now, byte, call⟩ := step
    simp only [playCalls, Option.bind_eq_bind, Option.bind_eq_some_iff, Option.some.injEq, Prod.mk.injEq] at hplay
    obtain ⟨⟨tr, reply, ms₁⟩, hcall, ⟨h₁, ms₂⟩, hrest, rfl, rfl⟩ := hplay
    have halloc₁ : Allocates (h₀ ++ [⟨ms, ⟨call, tr, reply⟩, ms₁⟩]) := by
      intro t ht
      rcases List.mem_append.mp ht with ht | ht
      · exact halloc t ht
      · rw [List.mem_singleton.mp ht]
        exact obeys_play runtimeAt_allocOk hcall
    have hnext := ih (hrun.step (l := ⟨call, tr, reply⟩) (exec_play hcall)) halloc₁ hrest
    rwa [List.append_assoc, List.singleton_append] at hnext

/-- What a played run comes to is what some run comes to. -/
theorem exists_run {α : Type} {L : Extern} {cfg : ManagerConfig} {steps} {ms₀ : MemoryStore}
    {f : List (Transition MemoryStore Handled) × MemoryStore → α} {a : α}
    (hplay : (playCalls L cfg steps ms₀).map f = some a) :
    ∃ h ms, Run (managerStep L cfg) ms₀ h ms ∧ Allocates h ∧ f (h, ms) = a := by
  obtain ⟨⟨h, ms⟩, hplay, hf⟩ := Option.map_eq_some_iff.mp hplay
  have hrun := run_playCalls Run.init (fun t ht => absurd ht List.not_mem_nil) hplay
  exact ⟨h, ms, hrun.1, hrun.2, hf⟩

/-- What one played call comes to is what a step comes to. -/
theorem exists_step {α : Type} {L : Extern} {cfg : ManagerConfig} {step} {ms : MemoryStore}
    {f : Transition MemoryStore Handled → α} {a : α}
    (hplay : (playCalls L cfg [step] ms).map (fun r => r.1.map f) = some [a]) :
    ∃ l ms', managerStep L cfg ms l ms' ∧ Obeys (onEnv allocOk) l.events ∧ f ⟨ms, l, ms'⟩ = a := by
  obtain ⟨h, ms', hrun, halloc, hf⟩ := exists_run hplay
  obtain ⟨t, rfl, ht⟩ := List.map_eq_singleton_iff.mp hf
  obtain ⟨hpre, hstep, -⟩ := Run.of_cons hrun
  refine ⟨t.label, t.post, hstep, halloc t List.mem_cons_self, ?_⟩
  rw [← ht, ← hpre]

/-- The challenge made of 32 times `byte`. -/
def drawnChallenge (byte : UInt8) : CStr := challengeOf (some ⟨List.replicate 32 byte, List.length_replicate⟩)

/-- The id `runtimeAt 0 (some 0)` gives a session. -/
def zeroId : CStr := "00000000-0000-7000-8000-000000000000"

/-- The first session of a run, bound to the device's key. -/
def deviceSession (challenge : CStr) : Session where
  id := some zeroId
  userId := some ("u" : CStr)
  state := .bound
  publicKey := some deviceJwk.render
  algorithm := some ("ES256" : CStr)
  challenge := some challenge
  expiresAt := 0
  hasExpires := false
  createdAt := 0

/-- Sessions that last `sessionTtlSeconds`, and no authorization. -/
def plainConfig (sessionTtlSeconds : Int) : ManagerConfig where
  cookieName := some ("session_id" : CStr)
  cookiePath := some ("/" : CStr)
  cookieDomain := none
  secure := true
  sameSite := some ("Lax" : CStr)
  cookieTtlSeconds := 3600
  sessionTtlSeconds := sessionTtlSeconds
  authorization := none
  onEvent := false

end OpenDbsc
