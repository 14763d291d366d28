/-
What a request writes to its store, whichever allocations fail.

A setter whose copy finds no memory leaves the field as it was, and no caller
looks. So the record that is written depends on which copies were made
(`Copied`): `trace_register`, `trace_refresh` and `trace_initiate` say what
each request does up to the write and what it then writes.
-/
import OpenDbsc.Allocations
import OpenDbsc.InternalErrors
import OpenDbsc.ManagerRun

namespace OpenDbsc

open Effects Prog

/-! ## Setters -/

/-- What a field holds after it is set to `value`: the copy, or what it held. -/
inductive Copied (field : Option CStr) : Option CStr → Option CStr → List (Event Sys) → Prop
  | null : Copied field none none []
  | copied (value : CStr) : Copied field (some value) (some value) [⟨.malloc (value.length + 1), true⟩]
  | kept (value : CStr) : Copied field (some value) field [⟨.malloc (value.length + 1), false⟩]

theorem trace_setField {put : Option CStr → Session} {field value : Option CStr} {tr : List (Event Sys)}
    {r : Int × Session}
    (h : Trace (setField put field value) tr r) : ∃ result, Copied field value result tr ∧ r.2 = put result := by
  obtain ⟨tr₁, ⟨rc, result⟩, tr₂, rfl, h₁, h₂⟩ := trace_bind.mp h
  obtain ⟨rfl, rfl⟩ := trace_pure.mp h₂
  refine ⟨result, ?_, rfl⟩
  rw [List.append_nil]
  cases value with
  | none =>
    obtain ⟨rfl, heq⟩ := trace_pure.mp h₁
    cases heq
    exact .null
  | some value =>
    obtain ⟨tr₃, copy, tr₄, rfl, h₃, h₄⟩ := trace_bind.mp h₁
    obtain ⟨tr₅, b, tr₆, rfl, h₅, h₆⟩ := trace_bind.mp h₃
    rw [(trace_perform (S := Sys) (o := .malloc (value.length + 1))).mp h₅]
    cases b with
    | true =>
      obtain ⟨rfl, rfl⟩ := trace_pure.mp h₆
      obtain ⟨rfl, heq⟩ := trace_pure.mp h₄
      cases heq
      exact .copied value
    | false =>
      obtain ⟨rfl, rfl⟩ := trace_pure.mp h₆
      obtain ⟨rfl, heq⟩ := trace_pure.mp h₄
      cases heq
      exact .kept value

/-- An allocation failed here. -/
def AllocFails (tr : List (Event Sys)) : Prop := ∃ n, (⟨.malloc n, false⟩ : Event Sys) ∈ tr

theorem allocFails_append {tr₁ tr₂ : List (Event Sys)} : AllocFails (tr₁ ++ tr₂) ↔ AllocFails tr₁ ∨ AllocFails tr₂ := by
  simp [AllocFails, exists_or]

theorem Copied.result {field value result : Option CStr} {tr : List (Event Sys)} (h : Copied field value result tr) :
    (¬ AllocFails tr ∧ result = value) ∨ (AllocFails tr ∧ result = field ∧ value ≠ none) := by
  cases h with
  | null => exact .inl ⟨fun ⟨_, h⟩ => absurd h List.not_mem_nil, rfl⟩
  | copied value =>
    refine .inl ⟨fun ⟨n, h⟩ => ?_, rfl⟩
    have heq := List.mem_singleton.mp h
    cases heq
  | kept value => exact .inr ⟨⟨_, List.mem_singleton_self _⟩, rfl, Option.some_ne_none _⟩

/-! ## Renewals -/

/-- What a renewal does between the acceptance of the proof and the write. -/
inductive Renewal (cfg : ManagerConfig) (s : Session) : List (Event Sys) → Session → Prop
  | mk {bytes n challenge trCopy trTtl s'}
      (hcopied : Copied s.challenge (some (challengeOf bytes)) challenge trCopy)
      (httl : Trace (applySessionTtl { s with challenge } cfg.sessionTtlSeconds) trTtl s') :
      Renewal cfg s (⟨.getentropy 32, bytes⟩ :: ⟨.malloc n, true⟩ :: (trCopy ++ trTtl)) s'

/-- A renewal draws first; then the challenge is the one drawn, or its copy finds no memory. -/
theorem Renewal.draws {cfg : ManagerConfig} {s s' : Session} {steps : List (Event Sys)} (h : Renewal cfg s steps s') :
    s'.id = s.id ∧ ∃ bytes n rest, steps = ⟨.getentropy 32, bytes⟩ :: ⟨.malloc n, true⟩ :: rest ∧
      (s'.challenge = some (challengeOf bytes) ∨ ∃ k rest', rest = ⟨.malloc k, false⟩ :: rest') := by
  obtain @⟨bytes, n, challenge, trCopy, trTtl, _, hcopied, httl⟩ := h
  obtain ⟨now, rfl, -⟩ := Trace.applySessionTtl httl
  refine ⟨Session.withTtl_id .., bytes, n, trCopy ++ trTtl, rfl, ?_⟩
  rw [(Session.withTtl_keeps ..).2.2.2.2.1]
  cases hcopied with
  | copied => exact .inl rfl
  | kept => exact .inr ⟨_, trTtl, rfl⟩

/-- The reply once the store has answered the write. -/
def Concluded (code : Int) (r : Int × ManagerResponse) : Prop :=
  (code = 0 ∧ r.1 = 0 ∧ r.2.statusCode = 200) ∨ (code ≠ 0 ∧ r = (-1, managerResponseInit))

/-- How a renewal ends: with nothing written, or with the record and the store's answer. -/
inductive RenewalEnds (cfg : ManagerConfig) (s : Session) :
    List (Event (Sys.sum StoreSig)) → Int × ManagerResponse → Prop
  | nothing {steps : List (Event Sys)} : RenewalEnds cfg s (steps.map Event.inl) (-1, managerResponseInit)
  | written {steps s' code r} (rest : List (Event Sys)) (h : Renewal cfg s steps s') (hr : Concluded code r) :
      RenewalEnds cfg s (steps.map Event.inl ++ answered (.update s') code :: rest.map Event.inl) r

/-- A challenge is drawn and then given memory. -/
theorem trace_managerGenerateChallenge {tr : List (Event Sys)} {challenge : Option CStr}
    (h : Trace managerGenerateChallenge tr challenge) :
    ∃ bytes n b, tr = [⟨.getentropy 32, bytes⟩, ⟨.malloc n, b⟩] ∧
      challenge = if b then some (challengeOf bytes) else none := by
  obtain ⟨tr₁, bytes, tr₂, rfl, hdraw, hrest⟩ := trace_bind.mp h
  rw [trace_getentropy.mp hdraw]
  have hmalloc :
    ∀ {n : Nat} {text : CStr}, Trace (malloc n >>= fun b => if b = true then pure (some text) else pure none) tr₂
      challenge → ∃ b, tr₂ = [⟨.malloc n, b⟩] ∧ challenge = if b then some text else none := by
    intro n text ht
    obtain ⟨tr₃, b, tr₄, rfl, h₃, h₄⟩ := trace_bind.mp ht
    rw [(trace_perform (S := Sys) (o := .malloc n)).mp h₃]
    cases b with
    | true =>
      obtain ⟨rfl, rfl⟩ := trace_pure.mp h₄
      exact ⟨true, rfl, rfl⟩
    | false =>
      obtain ⟨rfl, rfl⟩ := trace_pure.mp h₄
      exact ⟨false, rfl, rfl⟩
  cases bytes with
  | none =>
    obtain ⟨b, rfl, hb⟩ := hmalloc hrest
    exact ⟨none, _, b, rfl, hb⟩
  | some bytes =>
    obtain ⟨b, rfl, hb⟩ := hmalloc hrest
    exact ⟨some bytes, _, b, rfl, hb⟩

section

variable {L : Extern} {cfg : ManagerConfig} {tr : List (Event (Sys.sum StoreSig))} {r : Int × ManagerResponse}

theorem trace_renewSession {type detail : CStr} {s : Session} (h : Trace (renewSession L cfg type detail s) tr r) :
    RenewalEnds cfg s tr r := by
  obtain ⟨tr₁, challenge, tr₂, rfl, h₁, h₂⟩ := trace_bind.mp h
  obtain ⟨trDraw, rfl, hdraw⟩ := trace_lift.mp h₁
  obtain ⟨bytes, n, b, rfl, rfl⟩ := trace_managerGenerateChallenge hdraw
  cases b with
  | false =>
    obtain ⟨rfl, rfl⟩ := trace_pure.mp h₂
    rw [List.append_nil]
    exact .nothing
  | true =>
    obtain ⟨tr₃, ⟨rc, s₁⟩, tr₄, rfl, h₃, h₄⟩ := trace_bind.mp h₂
    obtain ⟨trCopy, rfl, hcopy⟩ := trace_lift.mp h₃
    obtain ⟨result, hcopied, rfl⟩ := trace_setField hcopy
    obtain ⟨tr₅, s₂, tr₆, rfl, h₅, h₆⟩ := trace_bind.mp h₄
    obtain ⟨trTtl, rfl, httl⟩ := trace_lift.mp h₅
    obtain ⟨tr₇, code, tr₈, rfl, h₇, h₈⟩ := trace_bind.mp h₆
    obtain rfl := trace_call.mp h₇
    have hrenewal := Renewal.mk (n := n) hcopied httl
    have hend : ∃ rest : List (Event Sys), tr₈ = rest.map Event.inl ∧ Concluded code r := by
      by_cases hcode : code = 0
      · rw [if_neg (not_not.mpr hcode)] at h₈
        obtain ⟨tr₉, _, tr₁₀, rfl, h₉, h₁₀⟩ := trace_bind.mp h₈
        obtain ⟨trEmit, rfl, -⟩ := trace_lift.mp h₉
        obtain ⟨trReply, rfl, hreply⟩ := trace_lift.mp h₁₀
        exact ⟨trEmit ++ trReply, (List.map_append ..).symm, .inl ⟨hcode, ensures_acceptedResponse L cfg s₂ _ r hreply⟩⟩
      · rw [if_pos hcode] at h₈
        obtain ⟨rfl, rfl⟩ := trace_pure.mp h₈
        exact ⟨[], rfl, .inr ⟨hcode, rfl⟩⟩
    obtain ⟨rest, rfl, hr⟩ := hend
    have hwritten := RenewalEnds.written rest hrenewal hr
    simpa using hwritten

end

/-! ## Requests with a proof -/

def IsWrite : (Sys.sum StoreSig).Op → Prop
  | .inr (.create _) => True
  | .inr (.update _) => True
  | _ => False

/-- Nothing is written here. -/
def Unwritten (tr : List (Event (Sys.sum StoreSig))) : Prop := ∀ e ∈ tr, ¬ IsWrite e.op

theorem Unwritten.append {tr₁ tr₂ : List (Event (Sys.sum StoreSig))} (h₁ : Unwritten tr₁) (h₂ : Unwritten tr₂) :
    Unwritten (tr₁ ++ tr₂) :=
  fun e he => (List.mem_append.mp he).elim (h₁ e) (h₂ e)

theorem unwritten_map_inl (tr : List (Event Sys)) : Unwritten (tr.map Event.inl) := by
  intro e he
  obtain ⟨e', -, rfl⟩ := List.mem_map.mp he
  exact fun h => h

theorem unwritten_get (id : CStr) (out : Option Session) : Unwritten [answered (.get (some id)) out] := by
  intro e he
  rw [List.mem_singleton.mp he]
  exact fun h => h

/-- Nothing is written and nothing granted. -/
def Refused (tr : List (Event (Sys.sum StoreSig))) (r : Int × ManagerResponse) : Prop :=
  Unwritten tr ∧ r.2.statusCode ≠ 200

theorem Refused.append {tr₁ tr₂ : List (Event (Sys.sum StoreSig))} {r : Int × ManagerResponse} (h₁ : Unwritten tr₁)
    (h₂ : Refused tr₂ r) : Refused (tr₁ ++ tr₂) r :=
  ⟨h₁.append h₂.1, h₂.2⟩

theorem Refused.lift {tr₁ : List (Event Sys)} {tr₂ : List (Event (Sys.sum StoreSig))} {r : Int × ManagerResponse}
    (h : Refused tr₂ r) : Refused (tr₁.map Event.inl ++ tr₂) r :=
  Refused.append (unwritten_map_inl tr₁) h

theorem refused_refuse {statusCode : Int} {text : CStr} (hstatus : statusCode ≠ 200)
    {tr : List (Event (Sys.sum StoreSig))}
    {r : Int × ManagerResponse} (h : Trace (sys (refuse statusCode text)) tr r) : Refused tr r := by
  obtain ⟨tr', rfl, ht⟩ := trace_lift.mp h
  refine ⟨unwritten_map_inl tr', ?_⟩
  rw [(ensures_refuse statusCode text tr' r ht).2]
  exact hstatus

theorem refused_challengeAgain {s : Session} {tr : List (Event (Sys.sum StoreSig))} {r : Int × ManagerResponse}
    (h : Trace (sys (challengeAgain s)) tr r) : Refused tr r := by
  obtain ⟨tr', rfl, ht⟩ := trace_lift.mp h
  refine ⟨unwritten_map_inl tr', ?_⟩
  rw [(ensures_challengeAgain s tr' r ht).2]
  decide

/-- The proof answers the session's challenge. -/
def AnswersChallenge (proof : ProofJWT) (s : Session) : Prop :=
  ∃ challenge, proof.challenge = some challenge ∧ s.challenge = some challenge

/-- What a register call has checked of a proof it accepts; the verification is `trVerify`. -/
structure RegisterAccepts (L : Extern) (cfg : ManagerConfig) (s : Session) (token : CStr) (trVerify : List (Event Sys))
    (proof : ProofJWT) : Prop where
  state : s.state = .active
  verified : Trace (jwtDecodeAndVerify L token proofJwtInit) trVerify (0, proof)
  challenge : AnswersChallenge proof s
  authorization : authorizationMatches cfg proof = true

/-- What a refresh call has checked. -/
structure RefreshAccepts (L : Extern) (s : Session) (token : CStr) (trVerify : List (Event Sys))
    (proof : ProofJWT) : Prop where
  state : s.state = .bound
  verified : ∃ key, s.publicKey = some key ∧ Trace (jwtVerifyWithJwk L token key proofJwtInit) trVerify (0, proof)
  challenge : AnswersChallenge proof s

/-- From the session found, by a proof verified in `trVerify` and the steps after it, to the record written. -/
inductive Rewrites (L : Extern) (cfg : ManagerConfig) :
    ManagerCall → Session → List (Event Sys) → ProofJWT → List (Event Sys) → Session → Prop
  | register {cookie header token s trVerify proof key trKey algorithm trAlg steps s'}
      (htoken : nonEmpty header = some token) (haccepts : RegisterAccepts L cfg s token trVerify proof)
      (hkey : Copied s.publicKey proof.jwk key trKey) (halg : Copied s.algorithm proof.algorithm algorithm trAlg)
      (hrenewal : Renewal cfg { s with state := .bound, publicKey := key, algorithm } steps s') :
      Rewrites L cfg (.register cookie header) s trVerify proof (trKey ++ (trAlg ++ steps)) s'
  | refresh {sessionId header token s trVerify proof steps s'}
      (htoken : nonEmpty header = some token) (haccepts : RefreshAccepts L s token trVerify proof)
      (hrenewal : Renewal cfg s steps s') : Rewrites L cfg (.refresh sessionId header) s trVerify proof steps s'

/-- A rewriting ends with a renewal of the session's challenge. -/
theorem Rewrites.renewal {L : Extern} {cfg : ManagerConfig} {call : ManagerCall} {s s' : Session}
    {trVerify steps : List (Event Sys)} {proof : ProofJWT} (h : Rewrites L cfg call s trVerify proof steps s') :
    AnswersChallenge proof s ∧ ∃ before s₁ trRenewal, steps = before ++ trRenewal ∧
      Renewal cfg s₁ trRenewal s' ∧ s₁.id = s.id := by
  cases h with
  | register htoken haccepts hkey halg hrenewal =>
    exact ⟨haccepts.challenge, _, _, _, (List.append_assoc ..).symm, hrenewal, rfl⟩
  | refresh htoken haccepts hrenewal => exact ⟨haccepts.challenge, [], _, _, rfl, hrenewal, rfl⟩

/-- How a request with a proof ends. -/
inductive RewriteEnds (L : Extern) (cfg : ManagerConfig) (call : ManagerCall) :
    List (Event (Sys.sum StoreSig)) → Int × ManagerResponse → Prop
  | refused {tr r} (h : Refused tr r) : RewriteEnds L cfg call tr r
  | written {id s trVerify proof steps s' code r} (rest : List (Event Sys)) (hid : call.target = some id)
      (h : Rewrites L cfg call s trVerify proof steps s') (hr : Concluded code r) :
      RewriteEnds L cfg call (answered (.get (some id)) (some s) ::
        ((trVerify ++ steps).map Event.inl ++ answered (.update s') code :: rest.map Event.inl)) r

section

variable {L : Extern} {cfg : ManagerConfig} {tr : List (Event (Sys.sum StoreSig))} {r : Int × ManagerResponse}

theorem trace_challengeMatches {proof : ProofJWT} {s : Session} {tr : List (Event Sys)} {b : Bool}
    (h : Trace (challengeMatches proof s) tr b) : tr = [] ∧ (b = true → AnswersChallenge proof s) := by
  unfold challengeMatches at h
  split at h
  · obtain ⟨rfl, rfl⟩ := trace_pure.mp h
    exact ⟨rfl, nofun⟩
  · obtain ⟨x, -⟩ := trace_op.mp h
    nomatch x
  · rename_i jti challenge hproof hs
    obtain ⟨rfl, rfl⟩ := trace_pure.mp h
    refine ⟨rfl, fun hb => ⟨jti, hproof, ?_⟩⟩
    rw [hs, eq_of_beq hb]

theorem RenewalEnds.rewrite {id : CStr} {s s₁ : Session} {trVerify : List (Event Sys)} {proof : ProofJWT}
    (h : RenewalEnds cfg s₁ tr r) (call : ManagerCall) (steps : List (Event Sys)) (hid : call.target = some id)
    (hrewrites : ∀ trRenewal s', Renewal cfg s₁ trRenewal s' →
      Rewrites L cfg call s trVerify proof (steps ++ trRenewal) s') :
    RewriteEnds L cfg call (answered (.get (some id)) (some s) :: ((trVerify ++ steps).map Event.inl ++ tr)) r := by
  cases h with
  | nothing => exact .refused (Refused.append (unwritten_get id _) (Refused.lift ⟨unwritten_map_inl _, by decide⟩))
  | written rest hrenewal hr =>
    have hwritten := RewriteEnds.written rest hid (hrewrites _ _ hrenewal) hr
    simpa [List.append_assoc] using hwritten

theorem trace_register {cookie header : Option CStr} (h : Trace (managerRegister L cfg cookie header) tr r) :
    RewriteEnds L cfg (.register cookie header) tr r := by
  unfold managerRegister at h
  cases hid : nonEmpty cookie with
  | none =>
    rw [hid] at h
    exact .refused (refused_refuse (by decide) h)
  | some id =>
    simp only [hid] at h
    obtain ⟨tr₁, out, tr₂, rfl, h₁, h₂⟩ := trace_bind.mp h
    obtain rfl := trace_call.mp h₁
    have hget := unwritten_get id out
    cases out with
    | none => exact .refused (Refused.append hget (refused_refuse (by decide) h₂))
    | some s =>
      simp only at h₂
      split at h₂
      · exact .refused (Refused.append hget (refused_refuse (by decide) h₂))
      rename_i hstate
      cases htoken : nonEmpty header with
      | none =>
        rw [htoken] at h₂
        exact .refused (Refused.append hget (refused_challengeAgain h₂))
      | some token =>
        simp only [htoken] at h₂
        obtain ⟨tr₃, ⟨rc, proof⟩, tr₄, rfl, h₃, h₄⟩ := trace_bind.mp h₂
        obtain ⟨trVerify, rfl, hverify⟩ := trace_lift.mp h₃
        simp only at h₄
        split at h₄
        · exact .refused (Refused.append hget (Refused.lift (refused_challengeAgain h₄)))
        rename_i hrc
        obtain ⟨tr₅, same, tr₆, rfl, h₅, h₆⟩ := trace_bind.mp h₄
        obtain ⟨trMatch, rfl, hmatch⟩ := trace_lift.mp h₅
        obtain ⟨rfl, hsame⟩ := trace_challengeMatches hmatch
        simp only [List.map_nil, List.nil_append] at *
        split at h₆
        · exact .refused (Refused.append hget (Refused.lift (refused_challengeAgain h₆)))
        rename_i hanswers
        split at h₆
        · exact .refused (Refused.append hget (Refused.lift (refused_challengeAgain h₆)))
        rename_i hauth
        obtain ⟨tr₇, ⟨_, s₁⟩, tr₈, rfl, h₇, h₈⟩ := trace_bind.mp h₆
        obtain ⟨trKey, rfl, hsetKey⟩ := trace_lift.mp h₇
        obtain ⟨key, hkey, rfl⟩ := trace_setField hsetKey
        obtain ⟨tr₉, ⟨_, s₂⟩, tr₁₀, rfl, h₉, h₁₀⟩ := trace_bind.mp h₈
        obtain ⟨trAlg, rfl, hsetAlg⟩ := trace_lift.mp h₉
        obtain ⟨algorithm, halg, rfl⟩ := trace_setField hsetAlg
        have haccepts : RegisterAccepts L cfg s token trVerify proof :=
          ⟨not_not.mp hstate, (not_not.mp hrc) ▸ hverify, hsame (by simpa using hanswers), by simpa using hauth⟩
        have hends := (trace_renewSession h₁₀).rewrite (L := L) (.register cookie header) (trKey ++ trAlg) hid
          fun trRenewal s' hrenewal => by
            rw [List.append_assoc]
            exact .register htoken haccepts hkey halg hrenewal
        simpa [List.append_assoc] using hends

theorem trace_refresh {sessionId header : Option CStr} (h : Trace (managerRefresh L cfg sessionId header) tr r) :
    RewriteEnds L cfg (.refresh sessionId header) tr r := by
  unfold managerRefresh at h
  cases hid : nonEmpty sessionId with
  | none =>
    rw [hid] at h
    exact .refused (refused_refuse (by decide) h)
  | some id =>
    simp only [hid] at h
    obtain ⟨tr₁, out, tr₂, rfl, h₁, h₂⟩ := trace_bind.mp h
    obtain rfl := trace_call.mp h₁
    have hget := unwritten_get id out
    cases out with
    | none => exact .refused (Refused.append hget (refused_refuse (by decide) h₂))
    | some s =>
      simp only at h₂
      split at h₂
      · exact .refused (Refused.append hget (refused_refuse (by decide) h₂))
      rename_i hstate
      cases htoken : nonEmpty header with
      | none =>
        rw [htoken] at h₂
        exact .refused (Refused.append hget (refused_challengeAgain h₂))
      | some token =>
        simp only [htoken] at h₂
        cases hkey : s.publicKey with
        | none =>
          rw [hkey] at h₂
          exact .refused (Refused.append hget (refused_challengeAgain h₂))
        | some key =>
          simp only [hkey] at h₂
          obtain ⟨tr₃, ⟨rc, proof⟩, tr₄, rfl, h₃, h₄⟩ := trace_bind.mp h₂
          obtain ⟨trVerify, rfl, hverify⟩ := trace_lift.mp h₃
          simp only at h₄
          split at h₄
          · exact .refused (Refused.append hget (Refused.lift (refused_challengeAgain h₄)))
          rename_i hrc
          obtain ⟨tr₅, same, tr₆, rfl, h₅, h₆⟩ := trace_bind.mp h₄
          obtain ⟨trMatch, rfl, hmatch⟩ := trace_lift.mp h₅
          obtain ⟨rfl, hsame⟩ := trace_challengeMatches hmatch
          simp only [List.map_nil, List.nil_append] at *
          split at h₆
          · exact .refused (Refused.append hget (Refused.lift (refused_challengeAgain h₆)))
          rename_i hanswers
          have haccepts : RefreshAccepts L s token trVerify proof :=
            ⟨not_not.mp hstate, ⟨key, hkey, (not_not.mp hrc) ▸ hverify⟩, hsame (by simpa using hanswers)⟩
          have hends := (trace_renewSession h₆).rewrite (L := L) (.refresh sessionId header) [] hid
            fun trRenewal s' hrenewal => .refresh htoken haccepts hrenewal
          simpa using hends

end

/-! ## Logins -/

/-- The session a login makes, in these steps. -/
inductive Drafted (L : Extern) (cfg : ManagerConfig) (userId : CStr) : List (Event Sys) → Session → Prop
  | mk {trNew newId id trId user trUser bytes n challenge trCopy now trTtl s}
      (hnew : Trace (sessionNewId L) trNew (some newId)) (hid : Copied none (some newId) id trId)
      (huser : Copied none (some userId) user trUser)
      (hcopied : Copied none (some (challengeOf bytes)) challenge trCopy)
      (httl : Trace (applySessionTtl { sessionInit with id, userId := user, challenge, createdAt := now }
        cfg.sessionTtlSeconds) trTtl s) :
      Drafted L cfg userId (trNew ++ (trId ++ (trUser ++ (⟨.getentropy 32, bytes⟩ :: ⟨.malloc n, true⟩ ::
        (trCopy ++ (⟨.time, now⟩ :: trTtl)))))) s

/-- A login's challenge is the one it draws, if its copy finds memory. -/
theorem Drafted.draws {L : Extern} {cfg : ManagerConfig} {userId : CStr} {steps : List (Event Sys)} {s : Session}
    (h : Drafted L cfg userId steps s) : ∃ bytes, (⟨.getentropy 32, bytes⟩ : Event Sys) ∈ steps ∧
      (s.challenge ≠ none → s.challenge = some (challengeOf bytes)) := by
  obtain @⟨trNew, newId, id, trId, user, trUser, bytes, n, challenge, trCopy, created, trTtl, _, hnew, hid, huser,
    hcopied, httl⟩ := h
  obtain ⟨now, rfl, -⟩ := Trace.applySessionTtl httl
  refine ⟨bytes, by simp, ?_⟩
  rw [(Session.withTtl_keeps ..).2.2.2.2.1]
  cases hcopied with
  | copied => exact fun _ => rfl
  | kept => exact fun h => absurd rfl h

/-- How a login ends. -/
inductive InitiateEnds (L : Extern) (cfg : ManagerConfig) (userId : CStr) : List (Event (Sys.sum StoreSig)) → Prop
  | nothing {steps : List (Event Sys)} : InitiateEnds L cfg userId (steps.map Event.inl)
  | written {steps s} (code : Int) (rest : List (Event Sys)) (h : Drafted L cfg userId steps s) :
      InitiateEnds L cfg userId (steps.map Event.inl ++ answered (.create s) code :: rest.map Event.inl)

theorem trace_initiate {L : Extern} {cfg : ManagerConfig} {userId : CStr} {outSession : Option Session}
    {tr : List (Event (Sys.sum StoreSig))} {r : Int × ManagerResponse × Option Session}
    (h : Trace (managerInitiate L cfg userId outSession) tr r) : InitiateEnds L cfg userId tr := by
  unfold managerInitiate at h
  obtain ⟨tr₁, newId, tr₂, rfl, h₁, h₂⟩ := trace_bind.mp h
  obtain ⟨trNew, rfl, hnew⟩ := trace_lift.mp h₁
  cases newId with
  | none =>
    obtain ⟨rfl, -⟩ := trace_pure.mp h₂
    rw [List.append_nil]
    exact .nothing
  | some newId =>
    obtain ⟨tr₃, ⟨_, s₁⟩, tr₄, rfl, h₃, h₄⟩ := trace_bind.mp h₂
    obtain ⟨trId, rfl, hsetId⟩ := trace_lift.mp h₃
    obtain ⟨id, hid, rfl⟩ := trace_setField hsetId
    obtain ⟨tr₅, ⟨_, s₂⟩, tr₆, rfl, h₅, h₆⟩ := trace_bind.mp h₄
    obtain ⟨trUser, rfl, hsetUser⟩ := trace_lift.mp h₅
    obtain ⟨user, huser, rfl⟩ := trace_setField hsetUser
    obtain ⟨tr₇, challenge, tr₈, rfl, h₇, h₈⟩ := trace_bind.mp h₆
    obtain ⟨trDraw, rfl, hdraw⟩ := trace_lift.mp h₇
    obtain ⟨bytes, n, b, rfl, rfl⟩ := trace_managerGenerateChallenge hdraw
    cases b with
    | false =>
      obtain ⟨rfl, -⟩ := trace_pure.mp h₈
      rw [List.append_nil, ← List.map_append, ← List.map_append, ← List.map_append]
      exact .nothing
    | true =>
      obtain ⟨tr₉, ⟨_, s₃⟩, tr₁₀, rfl, h₉, h₁₀⟩ := trace_bind.mp h₈
      obtain ⟨trCopy, rfl, hcopy⟩ := trace_lift.mp h₉
      obtain ⟨challenge, hcopied, rfl⟩ := trace_setField hcopy
      obtain ⟨tr₁₁, now, tr₁₂, rfl, h₁₁, h₁₂⟩ := trace_bind.mp h₁₀
      obtain ⟨trTime, rfl, htime⟩ := trace_lift.mp h₁₁
      obtain rfl := (trace_perform (S := Sys) (o := .time)).mp htime
      obtain ⟨tr₁₃, s₄, tr₁₄, rfl, h₁₃, h₁₄⟩ := trace_bind.mp h₁₂
      obtain ⟨trTtl, rfl, httl⟩ := trace_lift.mp h₁₃
      obtain ⟨tr₁₅, code, tr₁₆, rfl, h₁₅, h₁₆⟩ := trace_bind.mp h₁₄
      obtain rfl := trace_call.mp h₁₅
      have hend : ∃ rest : List (Event Sys), tr₁₆ = rest.map Event.inl := by
        split at h₁₆
        · exact ⟨[], (trace_pure.mp h₁₆).1⟩
        · obtain ⟨tr₁₇, _, tr₁₈, rfl, h₁₇, h₁₈⟩ := trace_bind.mp h₁₆
          obtain ⟨trCookie, rfl, -⟩ := trace_lift.mp h₁₇
          obtain ⟨tr₁₉, _, tr₂₀, rfl, h₁₉, h₂₀⟩ := trace_bind.mp h₁₈
          obtain ⟨trHeader, rfl, -⟩ := trace_lift.mp h₁₉
          obtain ⟨tr₂₁, _, tr₂₂, rfl, h₂₁, h₂₂⟩ := trace_bind.mp h₂₀
          obtain ⟨trOut, rfl, -⟩ := trace_lift.mp h₂₁
          obtain ⟨tr₂₃, _, tr₂₄, rfl, h₂₃, h₂₄⟩ := trace_bind.mp h₂₂
          obtain ⟨trEmit, rfl, -⟩ := trace_lift.mp h₂₃
          obtain ⟨rfl, -⟩ := trace_pure.mp h₂₄
          exact ⟨trCookie ++ (trHeader ++ (trOut ++ trEmit)), by simp⟩
      obtain ⟨rest, rfl⟩ := hend
      have hdrafted : Drafted L cfg userId _ s₄ := .mk (n := n) hnew hid huser hcopied httl
      have hwritten := InitiateEnds.written code rest hdrafted
      simpa [List.append_assoc] using hwritten

end OpenDbsc
