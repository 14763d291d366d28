/-
A session without a challenge.

Register and refresh compare the token's `jti` with the session's challenge
without asking whether there is one. So they come back from everything but
this: the store's lookup finds a session that has no challenge and is in the
state they want, and a token with a `jti` verifies (`stuck_register`,
`stuck_refresh`).
-/
import OpenDbsc.Effects.Stuck
import OpenDbsc.ManagerTotal
import OpenDbsc.ManagerWrites

namespace OpenDbsc

open Effects Prog

/-- The verification register makes of a token, for a session in the state it wants. -/
def registerCheck (L : Extern) (s : Session) (token : CStr) : Option (Prog Sys (Int × ProofJWT)) :=
  if s.state = .active then some (jwtDecodeAndVerify L token proofJwtInit) else none

/-- And refresh, under the session's key. -/
def refreshCheck (L : Extern) (s : Session) (token : CStr) : Option (Prog Sys (Int × ProofJWT)) :=
  if s.state = .bound then s.publicKey.map fun key => jwtVerifyWithJwk L token key proofJwtInit else none

/-- The token passes the check, whose events are `tr`, and has a `jti`; the session has no challenge. -/
def ComparesNull (check : Session → CStr → Option (Prog Sys (Int × ProofJWT))) (s : Session) (token : CStr)
    (tr : List (Event Sys)) : Prop :=
  ∃ p proof, check s token = some p ∧ Trace p tr (0, proof) ∧ proof.challenge ≠ none ∧ s.challenge = none

section

variable {L : Extern} {cfg : ManagerConfig}

theorem answerable_sys {α : Type} {p : Prog Sys α} (h : p.Answerable) : (sys p).Answerable := h.lift

theorem answerable_managerGenerateChallenge : managerGenerateChallenge.Answerable := by
  refine (answerable_getentropy 32).bind fun bytes => ?_
  cases bytes with
  | none => exact (onlyAllocates_strdup _).answerable
  | some bytes =>
    refine (onlyAllocates_malloc _).answerable.bind fun b => ?_
    split <;> exact answerable_pure _

theorem answerable_renewSession (type detail : CStr) (s : Session) : (renewSession L cfg type detail s).Answerable := by
  refine (answerable_sys answerable_managerGenerateChallenge).bind fun challenge => ?_
  cases challenge with
  | none => exact answerable_pure _
  | some challenge =>
    refine (answerable_sys onlyAllocates_setField.answerable).bind fun (_, s₁) => ?_
    refine (answerable_sys (answerable_applySessionTtl _ _)).bind fun s₂ => ?_
    refine (answerable_call (T := StoreSig) (o := .update s₂) ⟨(0 : Int)⟩).bind fun code => ?_
    split
    · exact answerable_pure _
    · exact (answerable_sys (answerable_emitEvent ..)).bind fun _ =>
        answerable_sys (onlyAllocates_acceptedResponse ..).answerable

theorem stuck_challengeMatches {proof : ProofJWT} {s : Session} {tr : List (Event Sys)} :
    Stuck (challengeMatches proof s) tr ↔ tr = [] ∧ proof.challenge ≠ none ∧ s.challenge = none := by
  unfold challengeMatches
  cases hproof : proof.challenge with
  | none => exact iff_of_false not_stuck_pure fun h => h.2.1 rfl
  | some jti =>
    cases hs : s.challenge with
    | none =>
      refine ⟨fun h => ?_, fun h => ?_⟩
      · cases h with
        | here => exact ⟨rfl, Option.some_ne_none _, rfl⟩
        | @op _ _ x => exact nomatch x
      · rw [h.1]
        exact .here fun ⟨x⟩ => nomatch x
    | some challenge => exact iff_of_false not_stuck_pure fun h => Option.some_ne_none _ h.2.2

/-- What follows the comparison returns. -/
theorem stuck_compared {proof : ProofJWT} {s : Session} {f : Bool → Request (Int × ManagerResponse)}
    (hf : ∀ b, (f b).Answerable) {tr : List (Event (Sys.sum StoreSig))} :
    Stuck (sys (challengeMatches proof s) >>= f) tr ↔ tr = [] ∧ proof.challenge ≠ none ∧ s.challenge = none := by
  rw [stuck_bind, or_iff_left fun ⟨_, b, _, _, _, h⟩ => h.not_answerable (hf b), sys, stuck_lift]
  simp only [stuck_challengeMatches]
  constructor
  · rintro ⟨_, rfl, rfl, h⟩
    exact ⟨rfl, h⟩
  · rintro ⟨rfl, h⟩
    exact ⟨[], rfl, rfl, h⟩

/-- A check, its code, and then the comparison. -/
theorem stuck_checked {p : Prog Sys (Int × ProofJWT)} (hp : OnlyAllocates p) {s : Session}
    {f : Int × ProofJWT → Request (Int × ManagerResponse)} (hfails : ∀ rc proof, rc ≠ 0 → (f (rc, proof)).Answerable)
    (hpasses : ∀ proof tr, Stuck (f (0, proof)) tr ↔ tr = [] ∧ proof.challenge ≠ none ∧ s.challenge = none)
    {tr : List (Event (Sys.sum StoreSig))} :
    Stuck (sys p >>= f) tr ↔
      ∃ trV proof, tr = trV.map Event.inl ∧ Trace p trV (0, proof) ∧ proof.challenge ≠ none ∧ s.challenge = none := by
  rw [stuck_bind_answerable (answerable_sys hp.answerable)]
  constructor
  · rintro ⟨tr₁, ⟨rc, proof⟩, tr₂, rfl, h₁, h₂⟩
    obtain ⟨trV, rfl, htrace⟩ := trace_lift.mp h₁
    by_cases hrc : rc = 0
    · subst hrc
      obtain ⟨rfl, hnull⟩ := (hpasses proof tr₂).mp h₂
      exact ⟨trV, proof, List.append_nil _, htrace, hnull⟩
    · exact absurd (hfails rc proof hrc) h₂.not_answerable
  · rintro ⟨trV, proof, rfl, htrace, hnull⟩
    exact ⟨_, (0, proof), [], (List.append_nil _).symm, trace_lift.mpr ⟨trV, rfl, htrace⟩,
      (hpasses proof []).mpr ⟨rfl, hnull⟩⟩

/-- A request that looks its session up, and checks a token for it. -/
theorem stuck_found {key : CStr} {header : Option CStr} {check : Session → CStr → Option (Prog Sys (Int × ProofJWT))}
    {f : Option Session → Request (Int × ManagerResponse)} (hnone : (f none).Answerable)
    (hsome : ∀ s tr, Stuck (f (some s)) tr ↔ ∃ token trV, nonEmpty header = some token ∧ tr = trV.map Event.inl ∧
      ComparesNull check s token trV) {tr : List (Event (Sys.sum StoreSig))} :
    Stuck (storeGet key >>= f) tr ↔ ∃ token s trV, nonEmpty header = some token ∧
      tr = answered (.get (some key)) (some s) :: trV.map Event.inl ∧ ComparesNull check s token trV := by
  have hget : (storeGet key).Answerable :=
    answerable_call (T := StoreSig) (o := .get (some key)) ⟨(none : Option Session)⟩
  rw [stuck_bind_answerable hget]
  constructor
  · rintro ⟨tr₁, out, tr₂, rfl, h₁, h₂⟩
    obtain rfl := trace_call.mp h₁
    cases out with
    | none => exact absurd hnone h₂.not_answerable
    | some s =>
      obtain ⟨token, trV, htoken, rfl, hnull⟩ := (hsome s tr₂).mp h₂
      exact ⟨token, s, trV, htoken, rfl, hnull⟩
  · rintro ⟨token, s, trV, htoken, rfl, hnull⟩
    exact ⟨_, some s, _, rfl, trace_call.mpr rfl, (hsome s _).mpr ⟨token, trV, htoken, rfl, hnull⟩⟩

theorem answerable_refuse (statusCode : Int) (text : CStr) : (sys (refuse statusCode text)).Answerable :=
  answerable_sys (onlyAllocates_refuse ..).answerable

theorem answerable_challengeAgain (s : Session) : (sys (challengeAgain s)).Answerable :=
  answerable_sys (onlyAllocates_challengeAgain s).answerable

theorem comparesNull_of_check {check : Session → CStr → Option (Prog Sys (Int × ProofJWT))} {s : Session} {token : CStr}
    {p : Prog Sys (Int × ProofJWT)} (hcheck : check s token = some p) {tr : List (Event (Sys.sum StoreSig))} :
    (∃ trV proof, tr = trV.map Event.inl ∧ Trace p trV (0, proof) ∧ proof.challenge ≠ none ∧ s.challenge = none) ↔
      ∃ token' trV, some token = some token' ∧ tr = trV.map Event.inl ∧ ComparesNull check s token' trV := by
  constructor
  · rintro ⟨trV, proof, htr, htrace, hnull⟩
    exact ⟨token, trV, rfl, htr, p, proof, hcheck, htrace, hnull⟩
  · rintro ⟨_, trV, ⟨⟩, htr, _, proof, hcheck', htrace, hnull⟩
    cases hcheck.symm.trans hcheck'
    exact ⟨trV, proof, htr, htrace, hnull⟩

theorem key_found {key : CStr} {header : Option CStr} {check : Session → CStr → Option (Prog Sys (Int × ProofJWT))}
    {tr : List (Event (Sys.sum StoreSig))} :
    (∃ token s trV, nonEmpty header = some token ∧ tr = answered (.get (some key)) (some s) :: trV.map Event.inl ∧
      ComparesNull check s token trV) ↔
      ∃ key' token s trV, some key = some key' ∧ nonEmpty header = some token ∧
        tr = answered (.get (some key')) (some s) :: trV.map Event.inl ∧ ComparesNull check s token trV := by
  constructor
  · rintro ⟨token, s, trV, h⟩
    exact ⟨key, token, s, trV, rfl, h⟩
  · rintro ⟨_, token, s, trV, ⟨⟩, h⟩
    exact ⟨token, s, trV, h⟩

theorem stuck_refused {p : Request (Int × ManagerResponse)} (hp : p.Answerable) {q : Prop} (hq : ¬ q)
    {tr : List (Event (Sys.sum StoreSig))} : Stuck p tr ↔ q :=
  iff_of_false (fun h => h.not_answerable hp) hq

/-- **When a registration does not come back.** -/
theorem stuck_register {id header : Option CStr} {tr : List (Event (Sys.sum StoreSig))} :
    Stuck (managerRegister L cfg id header) tr ↔ ∃ key token s trV, nonEmpty id = some key ∧
      nonEmpty header = some token ∧ tr = answered (.get (some key)) (some s) :: trV.map Event.inl ∧
      ComparesNull (registerCheck L) s token trV := by
  unfold managerRegister
  cases nonEmpty id with
  | none => exact stuck_refused (answerable_refuse ..) fun ⟨_, _, _, _, h, _⟩ => nomatch h
  | some key =>
    refine (stuck_found (answerable_refuse ..) fun s tr => ?_).trans key_found
    simp only
    by_cases hstate : s.state = .active
    · rw [if_neg (not_not.mpr hstate)]
      cases nonEmpty header with
      | none => exact stuck_refused (answerable_challengeAgain s) fun ⟨_, _, h, _⟩ => nomatch h
      | some token =>
        have hcheck : registerCheck L s token = some (jwtDecodeAndVerify L token proofJwtInit) := if_pos hstate
        refine (stuck_checked (s := s) (onlyAllocates_jwtDecodeAndVerify L token _) (fun rc proof hrc => ?_)
          fun proof tr => ?_).trans ?_
        · simp only [if_pos hrc]
          exact answerable_challengeAgain s
        · simp only [ne_eq, not_true_eq_false, if_false]
          refine stuck_compared fun b => ?_
          split
          · exact answerable_challengeAgain s
          split
          · exact answerable_challengeAgain s
          refine (answerable_sys onlyAllocates_setField.answerable).bind fun (_, s₁) => ?_
          exact (answerable_sys onlyAllocates_setField.answerable).bind fun (_, s₂) => answerable_renewSession ..
        · exact comparesNull_of_check hcheck
    · rw [if_pos hstate]
      refine stuck_refused (answerable_refuse ..) fun ⟨token, trV, _, _, p, _, hcheck, _⟩ => ?_
      rw [registerCheck, if_neg hstate] at hcheck
      cases hcheck

/-- **When a refresh does not come back.** -/
theorem stuck_refresh {id header : Option CStr} {tr : List (Event (Sys.sum StoreSig))} :
    Stuck (managerRefresh L cfg id header) tr ↔ ∃ key token s trV, nonEmpty id = some key ∧
      nonEmpty header = some token ∧ tr = answered (.get (some key)) (some s) :: trV.map Event.inl ∧
      ComparesNull (refreshCheck L) s token trV := by
  unfold managerRefresh
  cases nonEmpty id with
  | none => exact stuck_refused (answerable_refuse ..) fun ⟨_, _, _, _, h, _⟩ => nomatch h
  | some key =>
    refine (stuck_found (answerable_refuse ..) fun s tr => ?_).trans key_found
    simp only
    by_cases hstate : s.state = .bound
    · rw [if_neg (not_not.mpr hstate)]
      cases nonEmpty header with
      | none => exact stuck_refused (answerable_challengeAgain s) fun ⟨_, _, h, _⟩ => nomatch h
      | some token =>
        cases hkey : s.publicKey with
        | none =>
          refine stuck_refused (answerable_challengeAgain s) fun ⟨token, trV, _, _, p, _, hcheck, _⟩ => ?_
          rw [refreshCheck, if_pos hstate, hkey] at hcheck
          cases hcheck
        | some publicKey =>
          have hcheck : refreshCheck L s token = some (jwtVerifyWithJwk L token publicKey proofJwtInit) := by
            rw [refreshCheck, if_pos hstate, hkey]
            rfl
          refine (stuck_checked (s := s) (onlyAllocates_jwtVerifyWithJwk L token publicKey _) (fun rc proof hrc => ?_)
            fun proof tr => ?_).trans (comparesNull_of_check hcheck)
          · simp only [if_pos hrc]
            exact answerable_challengeAgain s
          · simp only [ne_eq, not_true_eq_false, if_false]
            refine stuck_compared fun b => ?_
            split
            · exact answerable_challengeAgain s
            · exact answerable_renewSession ..
    · rw [if_pos hstate]
      refine stuck_refused (answerable_refuse ..) fun ⟨token, trV, _, _, p, _, hcheck, _⟩ => ?_
      rw [refreshCheck, if_neg hstate] at hcheck
      cases hcheck

end

end OpenDbsc
