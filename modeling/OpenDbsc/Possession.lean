/-
Proof of possession.

A stored session is BOUND only through a register call answered 200, whose
token answered the challenge the session had then (`bound_possesses`). Either
the token carried a signature under the key it brought, which is the session's
from then on, or it said `alg` none and brought no key: the source accepts that
too, so a session can be bound to nothing (`bound_without_key`).
-/
import OpenDbsc.ManagerRun

namespace OpenDbsc

open Effects Records Prog

/-- The token is signed under the key it brings, by an algorithm that is advertised. -/
def SignedUnderItsKey (L : Extern) (token : CStr) (proof : ProofJWT) : Prop :=
  ∃ algorithm signature jwk, proof.algorithm = some algorithm ∧ (algorithm = "ES256" ∨ algorithm = "RS256") ∧
    proof.signature = some signature ∧ proof.jwk = some jwk ∧
    signatureVerifies L token algorithm signature jwk = true

/-- `alg` none, and no key. -/
def Unsigned (proof : ProofJWT) : Prop := proof.algorithm = some ("none" : CStr) ∧ proof.jwk = none

theorem registrationAccepted_iff {L : Extern} {token : CStr} {proof : ProofJWT} :
    registrationAccepted L token proof = true ↔
      proof.type = some ("dbsc+jwt" : CStr) ∧ (Unsigned proof ∨ SignedUnderItsKey L token proof) := by
  unfold registrationAccepted Unsigned SignedUnderItsKey
  simp only [Bool.and_eq_true, decide_eq_true_eq, checkProofType_eq_zero, and_assoc]
  refine and_congr_right fun _ => ?_
  unfold checkRegistrationJwkRules
  by_cases hnone : proof.algorithm = some ("none" : CStr)
  · rw [if_pos hnone]
    have hunsigned : signatureAccepted L token proof proof.jwk = true := by
      unfold signatureAccepted
      rw [hnone]
      rfl
    constructor
    · intro h
      split at h
      · rename_i hjwk
        exact .inl ⟨hnone, hjwk⟩
      · exact absurd h.1 (by decide)
    · intro h
      rcases h with ⟨-, hjwk⟩ | ⟨algorithm, _, _, halg, hknown, -⟩
      · rw [if_pos hjwk]
        exact ⟨rfl, hunsigned⟩
      · rw [hnone] at halg
        cases halg
        exact absurd hknown (by decide)
  · rw [if_neg hnone, signatureAccepted_iff hnone]
    constructor
    · intro h
      obtain ⟨-, algorithm, signature, jwk, halg, hknown, hs, hjwk, hv⟩ := h
      exact .inr ⟨algorithm, signature, jwk, halg, hknown, hs, hjwk, hv⟩
    · intro h
      rcases h with ⟨hunsigned, -⟩ | ⟨algorithm, signature, jwk, halg, hknown, hs, hjwk, hv⟩
      · exact absurd hunsigned hnone
      · refine ⟨if_pos ?_, algorithm, signature, jwk, halg, hknown, hs, hjwk, hv⟩
        rw [hjwk]
        exact Option.some_ne_none jwk

/-- `t` is a register call answered 200 that made `s` what it is: its token
answered the challenge the session had then, and `s` has the token's key and
algorithm. -/
def BoundBy (L : Extern) (t : Transition MemoryStore Handled) (s : Session) (token : CStr) (proof : ProofJWT) : Prop :=
  (∃ id header, t.label.call = .register id header ∧ nonEmpty id = s.id ∧ nonEmpty header = some token) ∧
  t.label.reply.Ok ∧ decodeProof L token = some proof ∧
  (∃ s₀ ∈ t.pre.sessions, s₀.id = s.id ∧ s₀.state = .active ∧
    ∃ challenge, proof.challenge = some challenge ∧ s₀.challenge = some challenge) ∧
  s.publicKey = proof.jwk ∧ s.algorithm = proof.algorithm

/-- Every bound session was bound by a call of the run. -/
def AllPossessed (L : Extern) (h : List (Transition MemoryStore Handled)) (m : SessionMap) : Prop :=
  ∀ s ∈ m.rows, s.state = .bound → ∃ t ∈ h, ∃ token proof, BoundBy L t s token proof ∧
    (Unsigned proof ∨ SignedUnderItsKey L token proof)

theorem AllPossessed.snoc {L : Extern} {h : List (Transition MemoryStore Handled)} {m : SessionMap}
    (hall : AllPossessed L h m) (t : Transition MemoryStore Handled) : AllPossessed L (h ++ [t]) m := by
  intro s hs hbound
  obtain ⟨t', ht', hby⟩ := hall s hs hbound
  exact ⟨t', List.mem_append_left _ ht', hby⟩

/-- One call keeps it. -/
theorem AllPossessed.step {L : Extern} {cfg : ManagerConfig} {h : List (Transition MemoryStore Handled)}
    {ms ms' : MemoryStore} {m m' : SessionMap} {l : Handled} (hR : ms.Represents m) (hR' : ms'.Represents m')
    (hall : AllPossessed L h m) (ho : Outcome L cfg m l m') : AllPossessed L (h ++ [⟨ms, l, ms'⟩]) m' := by
  have hall' := hall.snoc ⟨ms, l, ms'⟩
  intro s' hmem hbound
  obtain ⟨id, hid', hl'⟩ := hR'.lookup_of_mem (hR'.lists.mem_iff.mpr hmem)
  cases ho.fate id with
  | kept _ hkept => exact hall' s' (Table.lookup_mem (hkept.symm.trans hl')) hbound
  | expired _ _ _ _ _ _ hgone => rw [hgone] at hl'; cases hl'
  | closed _ _ _ hgone => rw [hgone] at hl'; cases hl'
  | initiated _ _ _ hs _ hnew =>
    cases hnew.symm.trans hl'
    rw [hs, (Session.withTtl_keeps ..).2.1] at hbound
    cases hbound
  | @renewed _ s verdict s₁ bytes now s₂ hrenews hlooks hl hcall haccept _ hs₂ _ hnew =>
    cases hnew.symm.trans hl'
    obtain ⟨-, -, hkey, halg, -, -⟩ := Session.withTtl_keeps
      { s₁ with challenge := some (challengeOf bytes) } cfg.sessionTtlSeconds now
    rw [← hs₂] at hkey halg
    cases hc : l.call with
    | register cid header =>
      rw [hc] at hcall
      cases hcall
      obtain ⟨hactive, token, proof, htoken, hproof, hacc, hchallenge, -, rfl⟩ := registerVerdict_eq_accept.mp haccept
      have htarget : nonEmpty cid = some id := by
        have htarget := hlooks.1
        rwa [hc] at htarget
      obtain ⟨hold, hid⟩ := hR.mem_of_lookup hl
      have hby : BoundBy L ⟨ms, l, ms'⟩ s' token proof :=
        ⟨⟨cid, header, hc, htarget.trans hid'.symm, htoken⟩, hrenews.1, hproof,
          ⟨s, hold, hid.trans hid'.symm, hactive, hchallenge⟩, hkey, halg⟩
      exact ⟨_, List.mem_append_right _ List.mem_cons_self, token, proof, hby, (registrationAccepted_iff.mp hacc).2⟩
    | refresh cid header =>
      rw [hc] at hcall
      cases hcall
      obtain ⟨hstate, -, -, -, -, -, -, -, -, rfl⟩ := refreshVerdict_eq_accept.mp haccept
      obtain ⟨t, ht, token, proof, ⟨hreg, hok, hproof, hold, hkey₁, halg₁⟩, hsigned⟩ :=
        hall' s₁ (Table.lookup_mem hl) hstate
      have hid : s'.id = s₁.id := hid'.trans (Table.lookup_key hl).symm
      refine ⟨t, ht, token, proof, ⟨?_, hok, hproof, ?_, hkey.trans hkey₁, halg.trans halg₁⟩, hsigned⟩
      · rwa [hid]
      · rwa [hid]
    | _ =>
      rw [hc] at hcall
      cases hcall

/-- **Proof of possession.** In every run, a bound session the store holds was
bound by a register call of the run, answered 200, whose token's `jti` was the
session's challenge at that moment; the session has the token's key and
algorithm, and the token was signed under that key or said `alg` none. -/
theorem bound_possesses {L : Extern} {cfg : ManagerConfig} {h : List (Transition MemoryStore Handled)}
    {ms : MemoryStore} (hrun : ManagerRun L cfg h ms) (halloc : Allocates h) {s : Session} (hs : s ∈ ms.sessions)
    (hbound : s.state = .bound) : ∃ t ∈ h, ∃ token proof, BoundBy L t s token proof ∧
      (Unsigned proof ∨ SignedUnderItsKey L token proof) := by
  have hinit : AllPossessed L [] Table.empty := fun s hs => absurd hs (Multiset.notMem_zero s)
  obtain ⟨m, hR, hall⟩ := Run.outcomes hrun halloc MemoryStore.Represents.empty hinit fun hR hall ho hR' =>
    hall.step hR hR' ho
  exact hall s (hR.lists.mem_iff.mp hs) hbound

/-! A session bound to a key, and one bound to none. -/

def unsignedExtern : Extern :=
  Extern.knowing [proofHeader "none" none, proofPayload (drawnChallenge 0) none] fun _ _ => true

theorem bound_possesses_signed : ∃ h ms s, ManagerRun (deviceExtern [drawnChallenge 0]) (plainConfig 0) h ms ∧ s ∈ ms.sessions ∧
    s.publicKey = some deviceJwk.render ∧ ∃ t ∈ h, ∃ token proof, BoundBy (deviceExtern [drawnChallenge 0]) t s token proof ∧
      (Unsigned proof ∨ SignedUnderItsKey (deviceExtern [drawnChallenge 0]) token proof) := by
  have hplay : (playCalls (deviceExtern [drawnChallenge 0]) (plainConfig 0) [(0, some 0, .initiate "u" none),
      (1, some 1, .register (some zeroId) (some (registrationToken (drawnChallenge 0))))] MemoryStore.empty).map
      (fun r => r.2.sessions.map fun s => (s.state, s.publicKey)) = some [(.bound, some deviceJwk.render)] := by
    decide +kernel
  obtain ⟨h, ms, hrun, halloc, hsessions⟩ := exists_run hplay
  obtain ⟨s, hs, hkey⟩ := List.mem_map.mp (hsessions ▸ List.mem_cons_self)
  simp only [Prod.mk.injEq] at hkey
  exact ⟨h, ms, s, hrun, hs, hkey.2, bound_possesses hrun halloc hs hkey.1⟩

/-- `alg` none binds a session to no key. -/
theorem bound_without_key : ∃ h ms s, ManagerRun unsignedExtern (plainConfig 0) h ms ∧ Allocates h ∧
    s ∈ ms.sessions ∧ s.state = .bound ∧ s.publicKey = none ∧ s.algorithm = some ("none" : CStr) := by
  have hplay : (playCalls unsignedExtern (plainConfig 0) [(0, some 0, .initiate "u" none),
      (1, some 1, .register (some zeroId) (some
        (proofToken (proofHeader "none" none) (proofPayload (drawnChallenge 0) none) [])))] MemoryStore.empty).map
      (fun r => r.2.sessions.map fun s => (s.state, s.publicKey, s.algorithm)) =
        some [(.bound, none, some ("none" : CStr))] := by
    decide +kernel
  obtain ⟨h, ms, hrun, halloc, hsessions⟩ := exists_run hplay
  obtain ⟨s, hs, hkey⟩ := List.mem_map.mp (hsessions ▸ List.mem_cons_self)
  simp only [Prod.mk.injEq] at hkey
  exact ⟨h, ms, s, hrun, halloc, hs, hkey⟩

end OpenDbsc
