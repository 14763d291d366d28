/-
Whether the records a request writes are whole.

No caller of a setter looks at its return code, and a setter whose copy finds
no memory leaves the field as it was. So what is written is whole exactly when
each of those copies is made and the challenge drawn is another than the one
consumed (`writes_whole_iff`).
-/
import OpenDbsc.AtomicStore
import OpenDbsc.Effects.Pool
import OpenDbsc.ManagerWrites

namespace OpenDbsc

open Effects Records Prog

/-! ## What a draft holds -/

/-- A challenge was drawn from these bytes here, or from none. -/
def DrewChallenge (tr : List (Event Sys)) (bytes : Option { b : List UInt8 // b.length = 32 }) : Prop :=
  (⟨.getentropy 32, bytes⟩ : Event Sys) ∈ tr

theorem drewChallenge_append {tr₁ tr₂ : List (Event Sys)} {bytes} :
    DrewChallenge (tr₁ ++ tr₂) bytes ↔ DrewChallenge tr₁ bytes ∨ DrewChallenge tr₂ bytes := List.mem_append

/-- Events that are neither a failing allocation nor the draw of a challenge. -/
def Uneventful (tr : List (Event Sys)) : Prop := ¬ AllocFails tr ∧ ∀ bytes, ¬ DrewChallenge tr bytes

theorem uneventful_nil : Uneventful [] :=
  ⟨fun ⟨_, hn⟩ => absurd hn List.not_mem_nil, fun _ hb => absurd hb List.not_mem_nil⟩

theorem Uneventful.cons {e : Event Sys} {tr : List (Event Sys)} (h : Uneventful tr)
    (hfail : ∀ n, e ≠ ⟨.malloc n, false⟩)
    (hdraw : ∀ bytes, e ≠ ⟨.getentropy 32, bytes⟩) : Uneventful (e :: tr) :=
  ⟨fun ⟨n, hn⟩ => (List.mem_cons.mp hn).elim (fun heq => hfail n heq.symm) fun hn => h.1 ⟨n, hn⟩,
    fun bytes hb => (List.mem_cons.mp hb).elim (fun heq => hdraw bytes heq.symm) (h.2 bytes)⟩

theorem uneventful_applySessionTtl {s s' : Session} {ttlSeconds : Int} {tr : List (Event Sys)}
    (h : Trace (applySessionTtl s ttlSeconds) tr s') : Uneventful tr := by
  unfold applySessionTtl at h
  split at h
  · obtain ⟨tr₁, now, tr₂, rfl, htime, hpure⟩ := trace_bind.mp h
    rw [trace_time.mp htime, (trace_pure.mp hpure).1]
    exact uneventful_nil.cons nofun nofun
  · rw [(trace_pure.mp h).1]
    exact uneventful_nil

theorem uneventful_sessionNewId {L : Extern} {id : Option CStr} {tr : List (Event Sys)}
    (h : Trace (sessionNewId L) tr id) : Uneventful tr := by
  obtain ⟨tr₁, ts, tr₂, rfl, hclock, hrest⟩ := trace_bind.mp h
  rw [(trace_perform (S := Sys) (o := .clockGettime)).mp hclock]
  cases ts with
  | none =>
    rw [(trace_pure.mp hrest).1]
    exact uneventful_nil.cons nofun nofun
  | some ts =>
    obtain ⟨tr₃, bytes, tr₄, rfl, hdraw, hpure⟩ := trace_bind.mp hrest
    have hnil : tr₄ = [] := by cases bytes <;> exact (trace_pure.mp hpure).1
    rw [trace_getentropy.mp hdraw, hnil]
    exact (uneventful_nil.cons (fun _ heq => by cases heq) fun _ heq => by cases heq).cons nofun nofun

/-- A copy draws nothing. -/
theorem Copied.draws {field value result : Option CStr} {tr : List (Event Sys)} (h : Copied field value result tr) :
    ∀ bytes, ¬ DrewChallenge tr bytes := by
  cases h with
  | null => exact fun _ => List.not_mem_nil
  | copied value => exact fun _ hb => nomatch List.mem_singleton.mp hb
  | kept value => exact fun _ hb => nomatch List.mem_singleton.mp hb

/-- What a renewal keeps, and the challenge it leaves. -/
structure RenewedFrom (s : Session) (steps : List (Event Sys)) (bytes : Option { b : List UInt8 // b.length = 32 })
    (s' : Session) : Prop where
  id : s'.id = s.id
  userId : s'.userId = s.userId
  state : s'.state = s.state
  publicKey : s'.publicKey = s.publicKey
  algorithm : s'.algorithm = s.algorithm
  drew : ∀ b, DrewChallenge steps b ↔ b = bytes
  challenge : (¬ AllocFails steps ∧ s'.challenge = some (challengeOf bytes)) ∨
    (AllocFails steps ∧ s'.challenge = s.challenge)

theorem drewChallenge_draw {bytes b} {n : Nat} {tr : List (Event Sys)} (h : ∀ b, ¬ DrewChallenge tr b) :
    DrewChallenge (⟨.getentropy 32, bytes⟩ :: ⟨.malloc n, true⟩ :: tr) b ↔ b = bytes := by
  constructor
  · intro hb
    rcases List.mem_cons.mp hb with heq | hb
    · cases heq
      rfl
    · rcases List.mem_cons.mp hb with heq | hb
      · cases heq
      · exact absurd hb (h b)
  · rintro rfl
    exact List.mem_cons_self

theorem allocFails_draw {bytes} {n : Nat} {tr : List (Event Sys)} :
    AllocFails (⟨.getentropy 32, bytes⟩ :: ⟨.malloc n, true⟩ :: tr) ↔ AllocFails tr := by
  constructor
  · rintro ⟨k, hk⟩
    rcases List.mem_cons.mp hk with heq | hk
    · cases heq
    · rcases List.mem_cons.mp hk with heq | hk
      · cases heq
      · exact ⟨k, hk⟩
  · rintro ⟨k, hk⟩
    exact ⟨k, List.mem_cons_of_mem _ (List.mem_cons_of_mem _ hk)⟩

theorem Renewal.spec {cfg : ManagerConfig} {s s' : Session} {steps : List (Event Sys)} (h : Renewal cfg s steps s') :
    ∃ bytes, RenewedFrom s steps bytes s' := by
  obtain @⟨bytes, n, challenge, trCopy, trTtl, _, hcopied, httl⟩ := h
  have hquiet := uneventful_applySessionTtl httl
  obtain ⟨now, rfl, -⟩ := Trace.applySessionTtl httl
  obtain ⟨huser, hstate, hkey, halg, hchallenge, -⟩ :=
    Session.withTtl_keeps { s with challenge } cfg.sessionTtlSeconds now
  have hdraws : ∀ b, ¬ DrewChallenge (trCopy ++ trTtl) b := fun b hb =>
    (drewChallenge_append.mp hb).elim (hcopied.draws b) (hquiet.2 b)
  refine ⟨bytes, Session.withTtl_id .., huser, hstate, hkey, halg, fun b => drewChallenge_draw hdraws, ?_⟩
  rw [allocFails_draw, allocFails_append, or_iff_left hquiet.1, hchallenge]
  rcases hcopied.result with ⟨hok, rfl⟩ | ⟨hfail, rfl, -⟩
  · exact .inl ⟨hok, rfl⟩
  · exact .inr ⟨hfail, rfl⟩

/-- What a login drafts: the record with every field, unless a copy fails and leaves one null. -/
structure DraftedFor (userId : CStr) (steps : List (Event Sys)) (s : Session) : Prop where
  state : s.state = .active
  unbound : s.publicKey = none ∧ s.algorithm = none
  fields : (¬ AllocFails steps ∧ s.id ≠ none ∧ s.userId = some userId ∧ s.challenge ≠ none) ∨
    (AllocFails steps ∧ (s.id = none ∨ s.userId = none ∨ s.challenge = none))

theorem Drafted.spec {L : Extern} {cfg : ManagerConfig} {userId : CStr} {s : Session} {steps : List (Event Sys)}
    (h : Drafted L cfg userId steps s) : DraftedFor userId steps s := by
  obtain @⟨trNew, newId, id, trId, user, trUser, bytes, n, challenge, trCopy, created, trTtl, _, hnew, hid, huser,
    hcopied, httl⟩ := h
  have hquietNew := uneventful_sessionNewId hnew
  have hquietTtl := (uneventful_applySessionTtl httl).cons (e := ⟨.time, created⟩) nofun nofun
  obtain ⟨now, rfl, -⟩ := Trace.applySessionTtl httl
  obtain ⟨hkeepsUser, hstate, hkey, halg, hchallenge, -⟩ := Session.withTtl_keeps
    { sessionInit with id, userId := user, challenge, createdAt := created } cfg.sessionTtlSeconds now
  refine ⟨hstate, ⟨hkey, halg⟩, ?_⟩
  rw [allocFails_append, or_iff_right hquietNew.1, allocFails_append, allocFails_append, allocFails_draw,
    allocFails_append, or_iff_left hquietTtl.1, Session.withTtl_id, hkeepsUser, hchallenge]
  rcases hid.result with ⟨hidOk, rfl⟩ | ⟨hidFail, rfl, -⟩
  · rcases huser.result with ⟨huserOk, rfl⟩ | ⟨huserFail, rfl, -⟩
    · rcases hcopied.result with ⟨hok, rfl⟩ | ⟨hfail, rfl, -⟩
      · exact .inl ⟨fun h => h.elim hidOk fun h => h.elim huserOk hok, nofun, rfl, nofun⟩
      · exact .inr ⟨.inr (.inr hfail), .inr (.inr rfl)⟩
    · exact .inr ⟨.inr (.inl huserFail), .inr (.inl rfl)⟩
  · exact .inr ⟨.inl hidFail, .inl rfl⟩

/-! ## Rows -/

/-- What the store keeps of every session, once only whole records are written. -/
structure GoodRow (s : Session) : Prop where
  userId : s.userId ≠ none
  challenge : s.challenge ≠ none
  unbound : s.state = .active → s.publicKey = none ∧ s.algorithm = none

def AllGood (m : SessionMap) : Prop := ∀ s ∈ m.rows, GoodRow s

/-- What is asked of a record that a proof was accepted for. -/
structure Rewritten (call : ManagerCall) (proof : ProofJWT) (s : Session) : Prop where
  bound : call.kind = .register → s.state = .bound ∧ s.publicKey = proof.jwk ∧ s.algorithm = proof.algorithm
  fresh : s.challenge ≠ proof.challenge

/-- No copy fails, and the challenge drawn is not this one. -/
def Keeps (consumed : Option CStr) (steps : List (Event Sys)) : Prop :=
  ¬ AllocFails steps ∧ ∀ bytes, DrewChallenge steps bytes → consumed ≠ some (challengeOf bytes)

/-- The renewal's part in that. -/
theorem RenewedFrom.keeps_iff {s s' : Session} {steps : List (Event Sys)} {bytes} (h : RenewedFrom s steps bytes s')
    {consumed : Option CStr} (hs : s.challenge = consumed) : Keeps consumed steps ↔ s'.challenge ≠ consumed := by
  rcases h.challenge with ⟨hok, hchallenge⟩ | ⟨hfail, hchallenge⟩
  · rw [hchallenge]
    constructor
    · exact fun hkeeps heq => hkeeps.2 bytes ((h.drew bytes).mpr rfl) heq.symm
    · intro hne
      refine ⟨hok, fun b hb heq => hne ?_⟩
      rw [(h.drew b).mp hb] at heq
      exact heq.symm
  · rw [hchallenge, hs]
    exact iff_of_false (fun hkeeps => hkeeps.1 hfail) fun hne => hne rfl

theorem keeps_append {consumed : Option CStr} {tr₁ tr₂ : List (Event Sys)} (h : ∀ bytes, ¬ DrewChallenge tr₁ bytes) :
    Keeps consumed (tr₁ ++ tr₂) ↔ ¬ AllocFails tr₁ ∧ Keeps consumed tr₂ := by
  unfold Keeps
  rw [allocFails_append, not_or, and_assoc]
  refine and_congr_right fun _ => and_congr_right fun _ => forall_congr' fun bytes => ?_
  rw [drewChallenge_append, or_iff_right (h bytes)]

/-- **What is written for an accepted proof is whole exactly when no copy
fails** and the challenge drawn is another than the one consumed. -/
theorem Rewrites.rewritten_iff {L : Extern} {cfg : ManagerConfig} {call : ManagerCall} {s s' : Session}
    {trVerify steps : List (Event Sys)} {proof : ProofJWT} (h : Rewrites L cfg call s trVerify proof steps s')
    (hgood : GoodRow s) : Rewritten call proof s' ↔ Keeps proof.challenge steps := by
  cases h with
  | @register cookie header token _ _ _ key trKey algorithm trAlg trRenewal _ htoken haccepts hkey halg hrenewal =>
    obtain ⟨bytes, hrenewed⟩ := hrenewal.spec
    obtain ⟨challenge, hproof, hs⟩ := haccepts.challenge
    obtain ⟨hnokey, hnoalg⟩ := hgood.unbound haccepts.state
    have hfresh := hrenewed.keeps_iff (hs.trans hproof.symm)
    rw [keeps_append hkey.draws, keeps_append halg.draws, hfresh]
    constructor
    · intro hrewritten
      obtain ⟨-, hboundKey, hboundAlg⟩ := hrewritten.bound rfl
      rw [hrenewed.publicKey] at hboundKey
      rw [hrenewed.algorithm] at hboundAlg
      refine ⟨fun hfail => ?_, fun hfail => ?_, hrewritten.fresh⟩
      · obtain ⟨hok, -⟩ | ⟨-, hkept, hne⟩ := hkey.result
        · exact hok hfail
        · exact hne (hboundKey.symm.trans (hkept.trans hnokey))
      · obtain ⟨hok, -⟩ | ⟨-, hkept, hne⟩ := halg.result
        · exact hok hfail
        · exact hne (hboundAlg.symm.trans (hkept.trans hnoalg))
    · rintro ⟨hkeyOk, halgOk, hne⟩
      have hboundKey := (hkey.result.resolve_right fun h => hkeyOk h.1).2
      have hboundAlg := (halg.result.resolve_right fun h => halgOk h.1).2
      exact ⟨fun _ => ⟨hrenewed.state, hrenewed.publicKey.trans hboundKey, hrenewed.algorithm.trans hboundAlg⟩, hne⟩
  | refresh htoken haccepts hrenewal =>
    obtain ⟨bytes, hrenewed⟩ := hrenewal.spec
    obtain ⟨challenge, hproof, hs⟩ := haccepts.challenge
    rw [hrenewed.keeps_iff (hs.trans hproof.symm)]
    exact ⟨Rewritten.fresh, fun hfresh => ⟨nofun, hfresh⟩⟩

/-! ## A call against the atomic store -/

/-- The call verifies `proof` for the session `s` it has found, in the events `trVerify`. -/
def ManagerCall.Verifies (L : Extern) (s : Session) (trVerify : List (Event Sys)) (proof : ProofJWT) :
    ManagerCall → Prop
  | .register _ header => ∃ token, nonEmpty header = some token ∧
      Trace (jwtDecodeAndVerify L token proofJwtInit) trVerify (0, proof)
  | .refresh _ header => ∃ token key, nonEmpty header = some token ∧ s.publicKey = some key ∧
      Trace (jwtVerifyWithJwk L token key proofJwtInit) trVerify (0, proof)
  | _ => False

/-- The call has verified `proof`; `rest` is what it did after that. -/
def Handled.Verified (L : Extern) (l : Handled) (proof : ProofJWT) (rest : List (Event (Sys.sum StoreSig))) : Prop :=
  ∃ id s trVerify, l.events = answered (.get id) (some s) :: (trVerify.map Event.inl ++ rest) ∧
    l.call.Verifies L s trVerify proof

/-- The call has written `s`: the store has taken it. -/
def Handled.Stored (l : Handled) (s : Session) : Prop :=
  answered (.create s) 0 ∈ l.events ∨ answered (.update s) 0 ∈ l.events

/-- A record that is written with nothing missing, and as the accepted proof has it. -/
structure Whole (L : Extern) (l : Handled) (s : Session) : Prop where
  id : s.id ≠ none
  userId : s.userId ≠ none
  challenge : s.challenge ≠ none
  rewritten : l.call.kind = .initiate ∨ ∃ proof rest, l.Verified L proof rest ∧ Rewritten l.call proof s

/-- The steps in which the call has made the record it has written, and the challenge it has consumed. -/
inductive Handled.Drafts (L : Extern) (l : Handled) : Option CStr → List (Event Sys) → Prop
  | login {steps s} {rest : List (Event (Sys.sum StoreSig))}
      (hevents : l.events = steps.map Event.inl ++ answered (.create s) 0 :: rest) : Drafts L l none steps
  | renewal {proof steps s} {rest : List (Event (Sys.sum StoreSig))}
      (hverified : l.Verified L proof (steps.map Event.inl ++ answered (.update s) 0 :: rest)) :
      Drafts L l proof.challenge steps

/-- No copy made for a record that is written fails, and the challenge drawn is not the one consumed. -/
def KeepsCopies (L : Extern) (l : Handled) : Prop := ∀ consumed steps, l.Drafts L consumed steps → Keeps consumed steps

/-- How a call ends. -/
inductive Handled.Ends (L : Extern) (cfg : ManagerConfig) (l : Handled) : Prop
  | unwritten (h : Unwritten l.events) (hrenews : ∀ id, ¬ l.Renews id)
  | login {userId steps s} (code : Int) (rest : List (Event Sys)) (hkind : l.call.kind = .initiate)
      (h : Drafted L cfg userId steps s)
      (hevents : l.events = steps.map Event.inl ++ answered (.create s) code :: rest.map Event.inl)
  | proof {id s trVerify proof steps s'} (code : Int) (rest : List (Event Sys)) (hid : l.call.target = some id)
      (h : Rewrites L cfg l.call s trVerify proof steps s') (hr : Concluded code (l.reply.rc, l.reply.resp))
      (hevents : l.events = answered (.get (some id)) (some s) ::
        ((trVerify ++ steps).map Event.inl ++ answered (.update s') code :: rest.map Event.inl))

theorem RewriteEnds.ends {L : Extern} {cfg : ManagerConfig} {l : Handled} {r : Int × ManagerResponse}
    (h : RewriteEnds L cfg l.call l.events r) (hreply : l.reply = replyOf r) : l.Ends L cfg := by
  generalize hevents : l.events = tr at h
  cases h with
  | refused h =>
    refine .unwritten (hevents ▸ h.1) fun id hrenews => h.2 ?_
    rw [← hrenews.1.2, hreply]
    rfl
  | written rest hid h hr => exact .proof _ rest hid h (by rw [hreply]; exact hr) hevents

theorem Handled.not_renews {l : Handled} (h : l.call.kind ≠ .register ∧ l.call.kind ≠ .refresh) (id : CStr) :
    ¬ l.Renews id :=
  fun hrenews => hrenews.2.1.elim h.1 h.2

theorem unwritten_sys {α : Type} (p : Prog Sys α) : AllOps (fun o => ¬ IsWrite o) (sys p) :=
    allOps_lift (fun _ h => h) p

theorem unwritten_managerClose (L : Extern) (cfg : ManagerConfig) (sessionId : Option CStr) :
    AllOps (fun o => ¬ IsWrite o) (managerClose L cfg sessionId) := by
  unfold managerClose
  split
  · refine AllOps.bind (allOps_perform (S := Sys.sum StoreSig) fun h => h) fun out => ?_
    split
    · refine (unwritten_sys _).bind fun userId => ?_
      split
      · exact allOps_pure _
      refine (unwritten_sys _).bind fun body => ?_
      split
      · refine (unwritten_sys _).bind fun setCookie => ?_
        refine AllOps.bind (allOps_perform (S := Sys.sum StoreSig) fun h => h) fun code => ?_
        split
        · exact allOps_pure _
        · exact (unwritten_sys _).bind fun _ => allOps_pure _
      · exact allOps_pure _
    · exact unwritten_sys _
  · exact unwritten_sys _

theorem Handled.ends {L : Extern} {cfg : ManagerConfig} {l : Handled}
    (h : Trace (l.call.program L cfg) l.events l.reply) : l.Ends L cfg := by
  obtain ⟨call, events, reply⟩ := l
  cases call with
  | initiate userId outSession =>
    obtain ⟨tr₁, r, tr₂, htr, hinitiate, hpure⟩ := trace_bind.mp h
    obtain rfl := (trace_pure.mp hpure).1
    rw [List.append_nil] at htr
    obtain rfl : events = tr₁ := htr
    have hends := trace_initiate hinitiate
    cases hends with
    | nothing => exact .unwritten (unwritten_map_inl _) (Handled.not_renews ⟨nofun, nofun⟩)
    | written code rest hdrafted => exact .login code rest rfl hdrafted rfl
  | register cookie header =>
    obtain ⟨r, hreply, hregister⟩ := trace_map.mp h
    exact (trace_register hregister).ends hreply
  | refresh sessionId header =>
    obtain ⟨r, hreply, hrefresh⟩ := trace_map.mp h
    exact (trace_refresh hrefresh).ends hreply
  | close sessionId =>
    obtain ⟨r, -, hclose⟩ := trace_map.mp h
    exact .unwritten ((unwritten_managerClose L cfg sessionId).trace hclose) (Handled.not_renews ⟨nofun, nofun⟩)
  | getSession id =>
    obtain ⟨tr₁, out, tr₂, htr, hget, hpure⟩ := trace_bind.mp h
    obtain rfl := (trace_pure.mp hpure).1
    rw [List.append_nil] at htr
    obtain rfl : events = tr₁ := htr
    have hops : AllOps (fun o => ¬ IsWrite o) (managerGetSession id) :=
      allOps_perform (S := Sys.sum StoreSig) fun h => h
    exact .unwritten (hops.trace hget) (Handled.not_renews ⟨nofun, nofun⟩)

section

variable {L : Extern} {cfg : ManagerConfig} {l : Handled} {m m' : SessionMap}

theorem Rewrites.verifies {call : ManagerCall} {s s' : Session} {trVerify steps : List (Event Sys)} {proof : ProofJWT}
    (h : Rewrites L cfg call s trVerify proof steps s') : call.Verifies L s trVerify proof := by
  cases h with
  | register htoken haccepts => exact ⟨_, htoken, haccepts.verified⟩
  | refresh htoken haccepts =>
    obtain ⟨key, hkey, hverified⟩ := haccepts.verified
    exact ⟨_, key, htoken, hkey, hverified⟩

/-- The proof a call verifies is told by its events. -/
theorem ManagerCall.Verifies.unique {call : ManagerCall} {s : Session} {tr₁ tr₂ : List (Event Sys)}
    {rest₁ rest₂ : List (Event (Sys.sum StoreSig))} {proof₁ proof₂ : ProofJWT} (h₁ : call.Verifies L s tr₁ proof₁)
    (h₂ : call.Verifies L s tr₂ proof₂) (h : tr₁.map Event.inl ++ rest₁ = tr₂.map Event.inl ++ rest₂) :
    proof₁ = proof₂ ∧ rest₁ = rest₂ := by
  cases call with
  | register cookie header =>
    obtain ⟨token, htoken, hverify₁⟩ := h₁
    obtain ⟨token', htoken', hverify₂⟩ := h₂
    obtain rfl := Option.some.inj (htoken.symm.trans htoken')
    obtain ⟨hproof, hrest⟩ := hverify₁.unique_lift hverify₂ h
    exact ⟨congrArg Prod.snd hproof, hrest⟩
  | refresh sessionId header =>
    obtain ⟨token, key, htoken, hkey, hverify₁⟩ := h₁
    obtain ⟨token', key', htoken', hkey', hverify₂⟩ := h₂
    obtain rfl := Option.some.inj (htoken.symm.trans htoken')
    obtain rfl := Option.some.inj (hkey.symm.trans hkey')
    obtain ⟨hproof, hrest⟩ := hverify₁.unique_lift hverify₂ h
    exact ⟨congrArg Prod.snd hproof, hrest⟩
  | _ => exact h₁.elim

theorem Unwritten.not_stored (h : Unwritten l.events) (s : Session) : ¬ l.Stored s :=
  fun hs => hs.elim (fun hc => h _ hc trivial) fun hu => h _ hu trivial

theorem Unwritten.not_drafts (h : Unwritten l.events) {consumed : Option CStr} {steps : List (Event Sys)} :
    ¬ l.Drafts L consumed steps := by
  intro hdrafts
  cases hdrafts with
  | @login _ s rest hevents =>
    refine h (answered (.create s) 0) ?_ trivial
    rw [hevents]
    exact List.mem_append_right _ List.mem_cons_self
  | @renewal proof _ s rest hverified =>
    obtain ⟨id, s₀, trVerify, hevents, -⟩ := hverified
    refine h (answered (.update s) 0) ?_ trivial
    rw [hevents]
    exact List.mem_cons_of_mem _ (List.mem_append_right _ (List.mem_append_right _ List.mem_cons_self))

/-- A write among events of which one is known to be the only one. -/
theorem mem_written {before after : List (Event Sys)} {e e' : Event (Sys.sum StoreSig)}
    (h : e ∈ before.map Event.inl ++ e' :: after.map Event.inl) (he : IsWrite e.op) : e = e' := by
  rcases List.mem_append.mp h with h | h
  · exact absurd he (unwritten_map_inl before e h)
  · rcases List.mem_cons.mp h with rfl | h
    · rfl
    · exact absurd he (unwritten_map_inl after e h)

/-- The call writes `s`, made in these steps, if the store's answer is 0. -/
structure Handled.WritesIf (L : Extern) (l : Handled) (consumed : Option CStr) (steps : List (Event Sys)) (s : Session)
    (code : Int) : Prop where
  stored : ∀ s', l.Stored s' ↔ s' = s ∧ code = 0
  drafts : ∀ consumed' steps', l.Drafts L consumed' steps' ↔ consumed' = consumed ∧ steps' = steps ∧ code = 0

theorem Handled.WritesIf.whole_iff {consumed : Option CStr} {steps : List (Event Sys)} {s : Session} {code : Int}
    (h : l.WritesIf L consumed steps s code) (hwhole : code = 0 → (Whole L l s ↔ Keeps consumed steps)) :
    (∀ s', l.Stored s' → Whole L l s') ↔ KeepsCopies L l := by
  constructor
  · intro hall consumed' steps' hdrafts
    obtain ⟨rfl, rfl, hcode⟩ := (h.drafts _ _).mp hdrafts
    exact (hwhole hcode).mp (hall s ((h.stored s).mpr ⟨rfl, hcode⟩))
  · intro hkeeps s' hs'
    obtain ⟨rfl, hcode⟩ := (h.stored s').mp hs'
    exact (hwhole hcode).mpr (hkeeps consumed steps ((h.drafts _ _).mpr ⟨rfl, rfl, hcode⟩))

theorem writesIf_login {steps rest : List (Event Sys)} {s : Session} {code : Int}
    (hevents : l.events = steps.map Event.inl ++ answered (.create s) code :: rest.map Event.inl) :
    l.WritesIf L none steps s code where
  stored s' := by
    unfold Handled.Stored
    rw [hevents]
    constructor
    · rintro (hs' | hs')
      · have heq := mem_written hs' trivial
        cases heq
        exact ⟨rfl, rfl⟩
      · have heq := mem_written hs' trivial
        cases heq
    · rintro ⟨rfl, rfl⟩
      exact .inl (List.mem_append_right _ List.mem_cons_self)
  drafts consumed' steps' := by
    constructor
    · intro hdrafts
      cases hdrafts with
      | login hevents' =>
        obtain ⟨rfl, hcall, -⟩ := map_inl_append_call_inj _ (hevents'.symm.trans hevents)
        cases hcall
        exact ⟨rfl, rfl, rfl⟩
      | renewal hverified =>
        obtain ⟨id, s₀, trVerify, hevents', -⟩ := hverified
        obtain ⟨-, hcall, -⟩ := map_inl_append_call_inj (S := Sys) (T := StoreSig) [] (hevents'.symm.trans hevents)
        cases hcall
    · rintro ⟨rfl, rfl, rfl⟩
      exact .login hevents

theorem writesIf_proof {id : CStr} {s s' : Session} {trVerify steps rest : List (Event Sys)} {proof : ProofJWT}
    {code : Int}
    (hverifies : l.call.Verifies L s trVerify proof)
    (hevents : l.events = answered (.get (some id)) (some s) ::
      ((trVerify ++ steps).map Event.inl ++ answered (.update s') code :: rest.map Event.inl)) :
    l.WritesIf L proof.challenge steps s' code where
  stored s'' := by
    unfold Handled.Stored
    rw [hevents]
    constructor
    · rintro (hs' | hs')
      · have heq := mem_written ((List.mem_cons.mp hs').resolve_left nofun) trivial
        cases heq
      · have heq := mem_written ((List.mem_cons.mp hs').resolve_left nofun) trivial
        cases heq
        exact ⟨rfl, rfl⟩
    · rintro ⟨rfl, rfl⟩
      exact .inr (List.mem_cons_of_mem _ (List.mem_append_right _ List.mem_cons_self))
  drafts consumed' steps' := by
    constructor
    · intro hdrafts
      cases hdrafts with
      | login hevents' =>
        obtain ⟨-, hcall, -⟩ := map_inl_append_call_inj (S := Sys) (T := StoreSig) [] (hevents.symm.trans hevents')
        cases hcall
      | renewal hverified =>
        obtain ⟨id', s₀, trVerify', hevents', hverifies'⟩ := hverified
        obtain ⟨hget, htail⟩ := List.cons.inj (hevents'.symm.trans hevents)
        cases hget
        rw [List.map_append, List.append_assoc] at htail
        obtain ⟨rfl, hrest⟩ := hverifies'.unique hverifies htail
        obtain ⟨rfl, hcall, -⟩ := map_inl_append_call_inj _ hrest
        cases hcall
        exact ⟨rfl, rfl, rfl⟩
    · rintro ⟨rfl, rfl, rfl⟩
      rw [List.map_append, List.append_assoc] at hevents
      exact .renewal ⟨some id, s, trVerify, hevents, hverifies⟩

/-- A login's record is whole exactly when no copy for it has failed. -/
theorem login_whole_iff {userId : CStr} {steps rest : List (Event Sys)} {s : Session}
    (hkind : l.call.kind = .initiate) (h : Drafted L cfg userId steps s)
    (hevents : l.events = steps.map Event.inl ++ answered (.create s) 0 :: rest.map Event.inl)
    (halong : Along atomicMap m l.events m') : Whole L l s ↔ Keeps none steps := by
  have hid : s.id ≠ none := by
    rw [hevents] at halong
    obtain ⟨_, _, ⟨-, hcreate⟩, -⟩ := halong.env_inv.call_inv
    obtain ⟨-, hid, -⟩ | ⟨hne, -⟩ := hcreate.create
    · exact hid
    · exact absurd rfl hne
  rcases h.spec.fields with ⟨hok, -, huser, hchallenge⟩ | ⟨hfail, hmissing⟩
  · have huser : s.userId ≠ none := huser ▸ Option.some_ne_none _
    exact iff_of_true ⟨hid, huser, hchallenge, .inl hkind⟩ ⟨hok, fun _ _ => nofun⟩
  · refine iff_of_false (fun hwhole => ?_) fun hkeeps => hkeeps.1 hfail
    rcases hmissing with hmissing | hmissing | hmissing
    · exact hwhole.id hmissing
    · exact hwhole.userId hmissing
    · exact hwhole.challenge hmissing

theorem Rewrites.not_login {call : ManagerCall} {s s' : Session} {trVerify steps : List (Event Sys)} {proof : ProofJWT}
    (h : Rewrites L cfg call s trVerify proof steps s') : call.kind ≠ .initiate := by
  cases h <;> nofun

/-- What a rewriting keeps of the session found. -/
theorem Rewrites.keeps {call : ManagerCall} {s s' : Session} {trVerify steps : List (Event Sys)} {proof : ProofJWT}
    (h : Rewrites L cfg call s trVerify proof steps s') (hgood : GoodRow s) :
    s'.id = s.id ∧ s'.userId ≠ none ∧ s'.challenge ≠ none ∧ s'.state = .bound := by
  have hrenewed : ∀ {s₁ : Session} {steps bytes}, RenewedFrom s₁ steps bytes s' → s₁.challenge = s.challenge →
      s'.challenge ≠ none := by
    intro s₁ steps bytes hrenewed hs₁
    rcases hrenewed.challenge with ⟨-, hchallenge⟩ | ⟨-, hchallenge⟩
    · exact hchallenge ▸ Option.some_ne_none _
    · rw [hchallenge, hs₁]
      exact hgood.challenge
  cases h with
  | register htoken haccepts hkey halg hrenewal =>
    obtain ⟨bytes, hspec⟩ := hrenewal.spec
    exact ⟨hspec.id, hspec.userId.trans_ne hgood.userId, hrenewed hspec rfl, hspec.state⟩
  | refresh htoken haccepts hrenewal =>
    obtain ⟨bytes, hspec⟩ := hrenewal.spec
    exact ⟨hspec.id, hspec.userId.trans_ne hgood.userId, hrenewed hspec rfl, hspec.state.trans haccepts.state⟩

/-- What is written for an accepted proof is whole exactly when it keeps its copies. -/
theorem proof_whole_iff {id : CStr} {s s' : Session} {trVerify steps rest : List (Event Sys)} {proof : ProofJWT}
    {code : Int}
    (h : Rewrites L cfg l.call s trVerify proof steps s') (hid : s.id = some id) (hgood : GoodRow s)
    (hevents : l.events = answered (.get (some id)) (some s) ::
      ((trVerify ++ steps).map Event.inl ++ answered (.update s') code :: rest.map Event.inl)) :
    Whole L l s' ↔ Keeps proof.challenge steps := by
  obtain ⟨hkeptId, huser, hchallenge, -⟩ := h.keeps hgood
  rw [← h.rewritten_iff hgood]
  rw [List.map_append, List.append_assoc] at hevents
  constructor
  · intro hwhole
    obtain hkind | ⟨proof', rest', ⟨id', s₀, trVerify', hevents', hverifies⟩, hrewritten⟩ := hwhole.rewritten
    · exact absurd hkind h.not_login
    · obtain ⟨hget, htail⟩ := List.cons.inj (hevents'.symm.trans hevents)
      cases hget
      obtain ⟨rfl, -⟩ := hverifies.unique h.verifies htail
      exact hrewritten
  · intro hrewritten
    exact ⟨by rw [hkeptId, hid]; nofun, huser, hchallenge,
      .inr ⟨proof, _, ⟨_, s, trVerify, hevents, h.verifies⟩, hrewritten⟩⟩

/-- What is written is whole exactly when the call keeps its copies, and then
the store's rows stay good. -/
theorem step_whole (hall : AllGood m) (h : Exec atomicMap (l.call.program L cfg) m l.events l.reply m') :
    ((∀ s, l.Stored s → Whole L l s) ↔ KeepsCopies L l) ∧ (KeepsCopies L l → AllGood m') := by
  have hevents : ∀ o m tr x m', atomicMap o m tr x m' → tr = [] := fun _ _ _ _ _ h => h.1
  have halong := h.along hevents
  have hwhole : ((∀ s, l.Stored s → Whole L l s) ↔ KeepsCopies L l) ∧ ∀ s, l.Stored s → Whole L l s → GoodRow s := by
    cases Handled.ends (h.trace_eq hevents) with
    | unwritten hnone _ =>
      exact ⟨iff_of_true (fun s hs => absurd hs (hnone.not_stored s)) fun _ _ hdrafts =>
        absurd hdrafts hnone.not_drafts, fun s hs => absurd hs (hnone.not_stored s)⟩
    | login code rest hkind hdrafted hlogin =>
      have hwrites := writesIf_login (L := L) hlogin
      refine ⟨hwrites.whole_iff fun hcode => ?_, fun s hs hwhole => ?_⟩
      · subst hcode
        exact login_whole_iff hkind hdrafted hlogin halong
      · obtain ⟨rfl, -⟩ := (hwrites.stored s).mp hs
        exact ⟨hwhole.userId, hwhole.challenge, fun _ => hdrafted.spec.unbound⟩
    | @proof id s₀ trVerify proof steps s' code rest _ hrewrites _ hproof =>
      have hfound : s₀.id = some id ∧ GoodRow s₀ := by
        rw [hproof] at halong
        obtain ⟨_, _, ⟨-, hget⟩, -⟩ := halong.call_inv
        obtain ⟨s, heq, hl, -⟩ | ⟨hnone, -⟩ := hget.get
        · cases heq
          exact ⟨Table.lookup_key hl, hall s₀ (Table.lookup_mem hl)⟩
        · cases hnone
      have hwrites := writesIf_proof hrewrites.verifies hproof
      refine ⟨hwrites.whole_iff fun _ => proof_whole_iff hrewrites hfound.1 hfound.2 hproof, fun s hs hwhole => ?_⟩
      obtain ⟨rfl, -⟩ := (hwrites.stored s).mp hs
      have hstate := (hrewrites.keeps hfound.2).2.2.2
      exact ⟨hwhole.userId, hwhole.challenge, fun hactive => absurd (hactive.symm.trans hstate) nofun⟩
  refine ⟨hwhole.1, fun hkeeps => ?_⟩
  have hgood : ∀ s, l.Stored s → GoodRow s := fun s hs => hwhole.2 s hs (hwhole.1.mpr hkeeps s hs)
  refine halong.invariant hall fun hmem hrows hcall s hs => ?_
  rcases hcall.2.rows hs with hs | heq | heq
  · exact hrows s hs
  · cases heq
    exact hgood s (.inl hmem)
  · cases heq
    exact hgood s (.inr hmem)

end

/-! ## Runs -/

/-- A call of a manager whose store is atomic; any allocation of the call's own may fail. -/
def recordStep (L : Extern) (cfg : ManagerConfig) (ms : MemoryStore) (l : Handled) (ms' : MemoryStore) : Prop :=
  Exec atomicStore (l.call.program L cfg) ms l.events l.reply ms'

/-- In the run so far the written records are whole just where copies are kept; if they all are, so are the rows. -/
def WholeSoFar (L : Extern) (h : List (Transition MemoryStore Handled)) (ms : MemoryStore) : Prop :=
  ((∀ t ∈ h, ∀ s, t.label.Stored s → Whole L t.label s) ↔ ∀ t ∈ h, KeepsCopies L t.label) ∧
    ∃ m, ms.Represents m ∧ ((∀ t ∈ h, KeepsCopies L t.label) → AllGood m)

theorem wholeSoFar_nil (L : Extern) : WholeSoFar L [] MemoryStore.empty :=
  ⟨iff_of_true (fun _ ht => absurd ht List.not_mem_nil) fun _ ht => absurd ht List.not_mem_nil,
    Table.empty, MemoryStore.Represents.empty, fun _ s hs => absurd hs (Multiset.notMem_zero s)⟩

theorem WholeSoFar.step {L : Extern} {cfg : ManagerConfig} {h : List (Transition MemoryStore Handled)}
    {ms ms' : MemoryStore}
    {l : Handled} (hsofar : WholeSoFar L h ms) (hs : recordStep L cfg ms l ms') :
    WholeSoFar L (h ++ [⟨ms, l, ms'⟩]) ms' := by
  obtain ⟨hiff, m, hR, hall⟩ := hsofar
  obtain ⟨m', hex, hR'⟩ := Exec.simulate (fun hR hB => hR.atomic hB) hs hR
  unfold WholeSoFar
  simp only [List.forall_mem_append, List.forall_mem_singleton]
  refine ⟨?_, m', hR', fun hkeeps => (step_whole (hall hkeeps.1) hex).2 hkeeps.2⟩
  rw [hiff]
  exact and_congr_right fun hkeeps => (step_whole (hall hkeeps) hex).1

/-- **When only whole records are written**: in a run, exactly when each call
keeps its copies. -/
theorem writes_whole_iff {L : Extern} {cfg : ManagerConfig} {h : List (Transition MemoryStore Handled)} {ms : MemoryStore}
    (hrun : Run (recordStep L cfg) MemoryStore.empty h ms) :
    (∀ t ∈ h, ∀ s, t.label.Stored s → Whole L t.label s) ↔ ∀ t ∈ h, KeepsCopies L t.label :=
  (hrun.invariant (wholeSoFar_nil L) fun _ hsofar hs => hsofar.step hs).1

/-! ## Playing a call -/

/-- The record a store has taken, in an event. -/
def storedOf : Event (Sys.sum StoreSig) → Option Session
  | ⟨.inr (.create s), code⟩ => if (code : Int) = 0 then some s else none
  | ⟨.inr (.update s), code⟩ => if (code : Int) = 0 then some s else none
  | _ => none

theorem stored_iff {l : Handled} {s : Session} : l.Stored s ↔ s ∈ l.events.filterMap storedOf := by
  rw [List.mem_filterMap]
  constructor
  · rintro (hs | hs)
    · exact ⟨_, hs, rfl⟩
    · exact ⟨_, hs, rfl⟩
  · rintro ⟨e, he, hstored⟩
    unfold storedOf at hstored
    split at hstored
    · split at hstored
      · rename_i hcode
        cases hstored
        cases hcode
        exact .inl he
      · cases hstored
    · split at hstored
      · rename_i hcode
        cases hstored
        cases hcode
        exact .inr he
      · cases hstored
    · cases hstored

/-- A call in which the allocation at position `n`, if it comes to one, fails. -/
def playRecord (n : Nat) (L : Extern) (cfg : ManagerConfig) (call : ManagerCall) (ms : MemoryStore) :
    Option (List (Event (Sys.sum StoreSig)) × Reply × MemoryStore) :=
  play (fun k o => match o with
    | .malloc _ => some (decide (k ≠ n))
    | o => runtimeAt 0 (some 0) k o) (fun o ms => pure (atomicServer o ms)) 0 (call.program L cfg) ms

theorem recordStep_play {n : Nat} {L : Extern} {cfg : ManagerConfig} {call : ManagerCall} {ms ms' : MemoryStore}
    {tr : List (Event (Sys.sum StoreSig))} {reply : Reply} (h : playRecord n L cfg call ms = some (tr, reply, ms')) :
    recordStep L cfg ms ⟨call, tr, reply⟩ ms' := by
  refine Exec.component (fun o ms tr x ms' hserved => ?_) (exec_play h)
  obtain ⟨rfl, heq⟩ := trace_pure.mp hserved
  obtain ⟨rfl, rfl⟩ := Prod.mk.inj heq
  exact atomicServer_answers o ms

def userCall : ManagerCall := .initiate "u" none

/-- The record of that user's first login. -/
def loginRecord (userId : Option CStr) : Session :=
  { sessionInit with id := some zeroId, userId, challenge := some (drawnChallenge 0) }

/-- What the played call has stored, whether it was granted and whether an allocation failed in it. -/
def recorded (r : List (Event (Sys.sum StoreSig)) × Reply × MemoryStore) : List Session × Bool × Bool :=
  (r.1.filterMap storedOf, decide r.2.1.Ok, r.1.any fun e => match e with
    | ⟨.inl (.malloc _), b⟩ => b == false
    | _ => false)

theorem keepsCopies_login {L : Extern} {userId : CStr} {outSession : Option Session}
    {tr : List (Event (Sys.sum StoreSig))} {reply : Reply}
    (h : ∀ n, (⟨.inl (.malloc n), false⟩ : Event (Sys.sum StoreSig)) ∉ tr) :
    KeepsCopies L ⟨.initiate userId outSession, tr, reply⟩ := by
  intro consumed steps hdrafts
  cases hdrafts with
  | login hevents =>
    refine ⟨fun ⟨n, hfail⟩ => h n ?_, fun _ _ => nofun⟩
    change tr = _ at hevents
    rw [hevents]
    exact List.mem_append_left _ (List.mem_map_of_mem (f := Event.inl) hfail)
  | renewal hverified =>
    obtain ⟨_, _, _, -, hfalse⟩ := hverified
    exact hfalse.elim

/-- A login with memory enough writes a whole record. -/
theorem writes_whole_login : ∃ h ms, Run (recordStep (deviceExtern []) (plainConfig 0)) MemoryStore.empty h ms ∧
    (∃ t ∈ h, t.label.reply.Ok ∧ t.label.Stored (loginRecord (some "u".toList))) ∧
    ∀ t ∈ h, ∀ s, t.label.Stored s → Whole (deviceExtern []) t.label s := by
  have hplayed : (playRecord 100 (deviceExtern []) (plainConfig 0) userCall MemoryStore.empty).map recorded =
      some ([loginRecord (some "u".toList)], true, false) := by decide +kernel
  obtain ⟨⟨tr, reply, ms⟩, hplay, hrecorded⟩ := Option.map_eq_some_iff.mp hplayed
  obtain ⟨hstored, hrest⟩ := Prod.mk.inj hrecorded
  obtain ⟨hok, hfails⟩ := Prod.mk.inj hrest
  have hrun := Run.init.step (recordStep_play hplay)
  refine ⟨_, ms, hrun, ⟨_, List.mem_cons_self, of_decide_eq_true hok, stored_iff.mpr ?_⟩,
    (writes_whole_iff hrun).mpr ?_⟩
  · change _ ∈ tr.filterMap storedOf
    rw [hstored]
    exact List.mem_cons_self
  · intro t ht
    obtain rfl := List.mem_singleton.mp ht
    refine keepsCopies_login fun n hmem => ?_
    exact absurd (List.any_eq_false.mp hfails _ hmem) (by simp)

/-- The copy of the user's name finds no memory: the login is granted, and the
record it writes has no user. -/
theorem login_without_user : ∃ h ms, Run (recordStep (deviceExtern []) (plainConfig 0)) MemoryStore.empty h ms ∧
    (∃ t ∈ h, t.label.reply.Ok ∧ t.label.Stored (loginRecord none)) ∧
    ¬ ∀ t ∈ h, ∀ s, t.label.Stored s → Whole (deviceExtern []) t.label s := by
  have hplayed : (playRecord 3 (deviceExtern []) (plainConfig 0) userCall MemoryStore.empty).map recorded =
      some ([loginRecord none], true, true) := by decide +kernel
  obtain ⟨⟨tr, reply, ms⟩, hplay, hrecorded⟩ := Option.map_eq_some_iff.mp hplayed
  obtain ⟨hstored, hrest⟩ := Prod.mk.inj hrecorded
  obtain ⟨hok, -⟩ := Prod.mk.inj hrest
  have hrun := Run.init.step (recordStep_play hplay)
  have hwritten : Handled.Stored ⟨userCall, tr, reply⟩ (loginRecord none) :=
    stored_iff.mpr (hstored ▸ List.mem_cons_self)
  refine ⟨_, ms, hrun, ⟨_, List.mem_cons_self, of_decide_eq_true hok, hwritten⟩, fun hall => ?_⟩
  exact (hall _ List.mem_cons_self _ hwritten).userId rfl

end OpenDbsc
