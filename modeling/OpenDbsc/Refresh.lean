/-
What refresh accepts.

A refresh call on a bound session should grant the tokens of which `Acceptable`
holds, and answer every other 403 and leave the store as it was. It does
unless the token is one that `Strays`: it is signed and answers the session's
challenge, but with a `jwk` in its header that is not an object, or under the
other algorithm than the session was registered with (`refresh_exact`). Both
are granted (`refresh_strays_granted`).
-/
import OpenDbsc.ManagerTotal

namespace OpenDbsc

open Effects Records Prog

/-- The algorithms registration offers. -/
def Advertised (algorithm : CStr) : Prop := algorithm = "ES256" ∨ algorithm = "RS256"

/-- The token is three parts; the first two decode; the header has the right type, and this key and algorithm; the
payload answers this challenge; and the third part signs the first two under the session's key. -/
def Presents (L : Extern) (s : Session) (token : CStr) (jwk : Option Json) (algorithm challenge : CStr) : Prop :=
  ∃ header payload signature headerJson payloadJson publicKey,
    HasParts token header payload signature ∧
    (base64urlBytes header).bind L.parseWithLength = some headerJson ∧
    (base64urlBytes payload).bind L.parseWithLength = some payloadJson ∧
    headerJson.getObjectItem "jwk" = jwk ∧
    Json.asString (headerJson.getObjectItem "typ") = some ("dbsc+jwt" : CStr) ∧
    Json.asString (headerJson.getObjectItem "alg") = some algorithm ∧ Advertised algorithm ∧
    Json.asString (payloadJson.getObjectItem "jti") = some challenge ∧
    s.publicKey = some publicKey ∧ SignedUnder L publicKey algorithm signature (header ++ '.' :: payload)

/-- It has no key, is of the session's algorithm and answers its challenge. -/
def Acceptable (L : Extern) (s : Session) (token : CStr) : Prop :=
  ∃ algorithm challenge, Presents L s token none algorithm challenge ∧ s.algorithm = some algorithm ∧
    s.challenge = some challenge

/-- The header has no object for a key, and there is no challenge to answer; or it is answered, but the header has
something for a key or the algorithm is not the session's. -/
def Strays (L : Extern) (s : Session) (token : CStr) : Prop :=
  ∃ jwk algorithm challenge, Presents L s token jwk algorithm challenge ∧ Json.asObject jwk = none ∧
    (s.challenge = none ∨ s.challenge = some challenge ∧ (jwk ≠ none ∨ s.algorithm ≠ some algorithm))

/-- A token presents one thing. -/
theorem Presents.unique {L : Extern} {s : Session} {token : CStr} {jwk jwk' : Option Json}
    {algorithm algorithm' challenge challenge' : CStr} (h : Presents L s token jwk algorithm challenge)
    (h' : Presents L s token jwk' algorithm' challenge') :
    jwk = jwk' ∧ algorithm = algorithm' ∧ challenge = challenge' := by
  obtain ⟨_, _, _, _, _, _, hthree, hheader, hpayload, rfl, -, halg, -, hp, -⟩ := h
  obtain ⟨_, _, _, _, _, _, hthree', hheader', hpayload', rfl, -, halg', -, hp', -⟩ := h'
  have hparts := decodeParts_eq_some.mpr ⟨_, _, hthree, hheader, hpayload⟩
  cases hparts.symm.trans (decodeParts_eq_some.mpr ⟨_, _, hthree', hheader', hpayload'⟩)
  exact ⟨rfl, Option.some.inj (halg.symm.trans halg'), Option.some.inj (hp.symm.trans hp')⟩

theorem refreshAccepted_iff {L : Extern} {token publicKey : CStr} {proof : ProofJWT} :
    refreshAccepted L token publicKey proof = true ↔ proof.jwk = none ∧ proof.type = some ("dbsc+jwt" : CStr) ∧
      ∃ algorithm signature, proof.algorithm = some algorithm ∧ Advertised algorithm ∧
        proof.signature = some signature ∧ signatureVerifies L token algorithm signature publicKey = true := by
  unfold refreshAccepted
  simp only [Bool.and_eq_true, decide_eq_true_eq, checkProofType_eq_zero, and_assoc]
  refine and_congr_right fun _ => and_congr_right fun _ => ?_
  constructor
  · intro h
    obtain ⟨hnone, h⟩ := h
    obtain ⟨algorithm, signature, _, halg, hadv, hsig, hjson, hv⟩ := (signatureAccepted_iff hnone).mp h
    cases hjson
    exact ⟨algorithm, signature, halg, hadv, hsig, hv⟩
  · intro h
    obtain ⟨algorithm, signature, halg, hadv, hsig, hv⟩ := h
    have hnone : proof.algorithm ≠ some ("none" : CStr) := by
      rw [halg]
      rcases hadv with rfl | rfl <;> decide
    exact ⟨hnone, (signatureAccepted_iff hnone).mpr ⟨algorithm, signature, publicKey, halg, hadv, hsig, rfl, hv⟩⟩

/-- The checks before the challenge is compared. -/
def Checked (L : Extern) (s : Session) (token challenge : CStr) : Prop :=
  ∃ publicKey proof, s.publicKey = some publicKey ∧ decodeProof L token = some proof ∧
    refreshAccepted L token publicKey proof = true ∧ proof.challenge = some challenge

/-- They take a `jwk` that is not an object for none. -/
theorem checked_iff {L : Extern} {s : Session} {token challenge : CStr} :
    Checked L s token challenge ↔
      ∃ jwk algorithm, Presents L s token jwk algorithm challenge ∧ Json.asObject jwk = none := by
  constructor
  · intro h
    obtain ⟨publicKey, proof, hkey, hproof, hacc, hp⟩ := h
    obtain ⟨headerJson, payloadJson, signature, -, -, hparts, rfl, -, -⟩ := decodeProof_eq_some.mp hproof
    obtain ⟨hnokey, htype, algorithm, _, halg, hadv, hsig, hv⟩ := refreshAccepted_iff.mp hacc
    cases hsig
    obtain ⟨headerB64, payloadB64, hthree, hheader, hpayload⟩ := decodeParts_eq_some.mp hparts
    rw [proofOf, Option.map_eq_none_iff] at hnokey
    exact ⟨_, algorithm, ⟨headerB64, payloadB64, signature, headerJson, payloadJson, publicKey, hthree, hheader,
      hpayload, rfl, htype, halg, hadv, hp, hkey, hthree.verifies.mp hv⟩, hnokey⟩
  · intro h
    obtain ⟨_, algorithm, ⟨headerB64, payloadB64, signature, headerJson, payloadJson, publicKey, hthree, hheader,
      hpayload, rfl, htype, halg, hadv, hp, hkey, hv⟩, hno⟩ := h
    have hproof : decodeProof L token = some (proofOf L headerJson payloadJson signature) :=
      decodeProof_eq_some.mpr ⟨headerJson, payloadJson, signature, algorithm, challenge,
        decodeParts_eq_some.mpr ⟨headerB64, payloadB64, hthree, hheader, hpayload⟩, rfl, halg, hp⟩
    have hnokey : (proofOf L headerJson payloadJson signature).jwk = none := by
      rw [proofOf, hno]
      rfl
    exact ⟨publicKey, _, hkey, hproof,
      refreshAccepted_iff.mpr ⟨hnokey, htype, algorithm, signature, halg, hadv, rfl, hthree.verifies.mpr hv⟩, hp⟩

theorem refreshVerdict_accepts {L : Extern} {header : Option CStr} {s : Session} {token : CStr}
    (hbound : s.state = .bound) (htoken : nonEmpty header = some token) :
    refreshVerdict L header s = .accept s ↔
      ∃ challenge, Checked L s token challenge ∧ s.challenge = some challenge := by
  rw [refreshVerdict_eq_accept]
  constructor
  · intro h
    obtain ⟨-, token', publicKey, proof, htoken', hkey, hproof, hacc, ⟨challenge, hp, hs⟩, -⟩ := h
    cases htoken.symm.trans htoken'
    exact ⟨challenge, ⟨publicKey, proof, hkey, hproof, hacc, hp⟩, hs⟩
  · intro h
    obtain ⟨challenge, ⟨publicKey, proof, hkey, hproof, hacc, hp⟩, hs⟩ := h
    exact ⟨hbound, token, publicKey, proof, htoken, hkey, hproof, hacc, ⟨challenge, hp, hs⟩, rfl⟩

theorem refreshVerdict_undefined {L : Extern} {header : Option CStr} {s : Session} {token : CStr}
    (hbound : s.state = .bound) (htoken : nonEmpty header = some token) :
    refreshVerdict L header s = .undefined ↔ s.challenge = none ∧ ∃ challenge, Checked L s token challenge := by
  constructor
  · intro h
    refine ⟨not_not.mp fun hs => refreshVerdict_ne_undefined L hs h, ?_⟩
    rw [refreshVerdict, if_neg (not_not.mpr hbound), htoken] at h
    cases hkey : s.publicKey with
    | none => simp [hkey] at h
    | some publicKey =>
      cases hproof : decodeProof L token with
      | none => simp [hkey, hproof] at h
      | some proof =>
        simp only [hkey, hproof] at h
        split at h
        case isFalse => cases h
        case isTrue hacc =>
          cases hp : proof.challenge with
          | none => simp [challengeVerdict, hp] at h
          | some challenge => exact ⟨challenge, publicKey, proof, hkey, hproof, hacc, hp⟩
  · intro h
    obtain ⟨hs, challenge, publicKey, proof, hkey, hproof, hacc, hp⟩ := h
    rw [refreshVerdict, if_neg (not_not.mpr hbound), htoken, hkey]
    simp only [hproof]
    rw [if_pos hacc, challengeVerdict, hp, hs]

/-- A bound session is rejected with its challenge, for whatever reason. -/
theorem refreshVerdict_reject_bound {L : Extern} {header : Option CStr} {s : Session} {resp : ManagerResponse}
    (hbound : s.state = .bound) (h : refreshVerdict L header s = .reject resp) : resp = challengeResponse s := by
  rcases refreshVerdict_eq_reject h with rfl | hresp
  · have hstate : ¬ s.state ≠ .bound := not_not.mpr hbound
    unfold refreshVerdict at h
    rw [if_neg hstate] at h
    split at h
    · split at h
      · cases h
      · split at h
        · rcases challengeVerdict_eq_reject h with hresp | hnext
          · exact hresp
          · cases hnext
        · cases h
    · cases h
  · exact hresp

/-- Of the tokens that do not stray, the acceptable ones are accepted and none is compared with a null challenge. -/
theorem refreshVerdict_acceptable {L : Extern} {header : Option CStr} {s : Session} {token : CStr}
    (hbound : s.state = .bound) (htoken : nonEmpty header = some token) (hstrays : ¬ Strays L s token) :
    (refreshVerdict L header s = .accept s ↔ Acceptable L s token) ∧ refreshVerdict L header s ≠ .undefined := by
  rw [refreshVerdict_accepts hbound htoken, ne_eq, refreshVerdict_undefined hbound htoken]
  simp only [checked_iff]
  refine ⟨⟨?_, ?_⟩, ?_⟩
  · intro h
    obtain ⟨challenge, ⟨jwk, algorithm, hpresents, hno⟩, hs⟩ := h
    by_cases hodd : jwk ≠ none ∨ s.algorithm ≠ some algorithm
    · exact absurd ⟨jwk, algorithm, challenge, hpresents, hno, .inr ⟨hs, hodd⟩⟩ hstrays
    · simp only [not_or, not_not] at hodd
      obtain ⟨rfl, halg⟩ := hodd
      exact ⟨algorithm, challenge, hpresents, halg, hs⟩
  · intro h
    obtain ⟨algorithm, challenge, hpresents, -, hs⟩ := h
    exact ⟨challenge, ⟨none, algorithm, hpresents, rfl⟩, hs⟩
  · intro h
    obtain ⟨hs, challenge, jwk, algorithm, hpresents, hno⟩ := h
    exact hstrays ⟨jwk, algorithm, challenge, hpresents, hno, .inl hs⟩

/-- And one that strays is compared so, or is accepted. -/
theorem refreshVerdict_strays {L : Extern} {header : Option CStr} {s : Session} {token : CStr}
    (hbound : s.state = .bound) (htoken : nonEmpty header = some token) (hstrays : Strays L s token) :
    refreshVerdict L header s = .undefined ∨ refreshVerdict L header s = .accept s ∧ ¬ Acceptable L s token := by
  obtain ⟨jwk, algorithm, challenge, hpresents, hno, hodd⟩ := hstrays
  have hchecked := checked_iff.mpr ⟨jwk, algorithm, hpresents, hno⟩
  rcases hodd with hs | ⟨hs, hodd⟩
  · exact .inl ((refreshVerdict_undefined hbound htoken).mpr ⟨hs, challenge, hchecked⟩)
  · refine .inr ⟨(refreshVerdict_accepts hbound htoken).mpr ⟨challenge, hchecked, hs⟩, fun h => ?_⟩
    obtain ⟨_, _, hpresents', halg, -⟩ := h
    obtain ⟨rfl, rfl, rfl⟩ := hpresents.unique hpresents'
    rcases hodd with hodd | hodd
    · exact hodd rfl
    · exact hodd halg

/-! ## A call in time -/

/-- The clock at `now`, and memory enough. -/
def clockAt (now : Int) : (o : Sys.Op) → Option (Sys.Ans o)
  | .time => some now
  | o => allocOk o

theorem reading_of_clock {now reading : Int} {tr : List (Event (Sys.sum StoreSig))}
    (h : Obeys (onEnv (clockAt now)) tr) (hmem : Note.reading reading ∈ notes tr) : reading = now := by
  obtain ⟨e, he, hnote⟩ := List.mem_filterMap.mp hmem
  rcases e with ⟨(o | o), x⟩
  · cases o <;> cases hnote
    exact h _ he now rfl
  · cases o <;> cases hnote

/-- Some call runs by a clock at which `s` has not expired. -/
theorem ManagerCall.Returns.inTime {L : Extern} {cfg : ManagerConfig} {ms : MemoryStore} {call : ManagerCall}
    (h : call.Returns L cfg ms) (id : CStr) (s : Session) :
    ∃ l ms', managerStep L cfg ms l ms' ∧ Obeys (onEnv allocOk) l.events ∧ l.call = call ∧ l.InTime id s := by
  obtain ⟨⟨tr, reply, ms'⟩, hplay⟩ := Option.isSome_iff_exists.mp (h _ (runtime_runtimeAt s.expiresAt (some 0)))
  have hclock : Obeys (onEnv (clockAt s.expiresAt)) tr := by
    refine obeys_play (fun n o x hx => ?_) hplay
    cases o <;> first | exact hx | cases hx
  refine ⟨⟨call, tr, reply⟩, ms', exec_play hplay, obeys_play runtimeAt_allocOk hplay, rfl, ?_⟩
  intro before out after hlooks now hnow
  refine Session.expiredAt_eq_false.mpr fun _ => ?_
  have hmem : Note.reading now ∈ notes tr := by
    rw [hlooks.2]
    exact List.mem_append_left _ (List.mem_map_of_mem hnow)
  exact (reading_of_clock hclock hmem).le

/-- **What refresh accepts.** A refresh call on an unexpired bound session
returns, grants exactly the acceptable tokens and answers every other 403,
changing nothing: unless the token strays, and then it does not. -/
theorem refresh_exact {L : Extern} {cfg : ManagerConfig} {ms : MemoryStore} {m : SessionMap} (hR : ms.Represents m)
    {s : Session} (hs : s ∈ ms.sessions) (hbound : s.state = .bound) {id token : CStr} (hid : s.id = some id)
    {sessionId header : Option CStr} (hsessionId : nonEmpty sessionId = some id)
    (htoken : nonEmpty header = some token) :
    ((ManagerCall.refresh sessionId header).Returns L cfg ms ∧
      ∀ l ms', managerStep L cfg ms l ms' → Obeys (onEnv allocOk) l.events → l.call = .refresh sessionId header →
        l.InTime id s → (l.reply.Ok ↔ Acceptable L s token) ∧
          (¬ Acceptable L s token → l.reply.rc = 0 ∧ l.reply.resp.statusCode = 403 ∧
            (ms'.sessions : Multiset Session) = ms.sessions)) ↔
      ¬ Strays L s token := by
  have hl : m.lookup (some id) = some s := by
    obtain ⟨id', hid', hl⟩ := hR.lookup_of_mem hs
    rwa [← hid', hid] at hl
  have hjudged : ∀ l ms', managerStep L cfg ms l ms' → Obeys (onEnv allocOk) l.events →
      l.call = .refresh sessionId header → l.InTime id s →
      (∃ resp, refreshVerdict L header s = .reject resp ∧ l.reply = replyOf (0, resp) ∧
        (ms'.sessions : Multiset Session) = ms.sessions) ∨
        ∃ s₁, refreshVerdict L header s = .accept s₁ ∧ l.reply.Ok := by
    intro l ms' hstep halloc hcall htime
    have htarget : l.call.target = some id := by rw [hcall]; exact hsessionId
    have hverdict : l.call.verdict L cfg = some (refreshVerdict L header) := by rw [hcall]; rfl
    exact managerStep_verdict hstep halloc hR htarget hverdict hl htime
  constructor
  · intro h hstrays
    obtain ⟨hreturns, hexact⟩ := h
    obtain ⟨l, ms', hstep, halloc, hcall, htime⟩ := hreturns.inTime id s
    have hverdict := hjudged l ms' hstep halloc hcall htime
    rcases refreshVerdict_strays hbound htoken hstrays with hundefined | ⟨haccept, hno⟩
    · rw [hundefined] at hverdict
      rcases hverdict with ⟨_, h, -⟩ | ⟨_, h, -⟩ <;> cases h
    · rw [haccept] at hverdict
      rcases hverdict with ⟨_, h, -⟩ | ⟨_, -, hok⟩
      · cases h
      · exact hno ((hexact l ms' hstep halloc hcall htime).1.mp hok)
  · intro hstrays
    obtain ⟨hacceptable, hdefined⟩ := refreshVerdict_acceptable hbound htoken hstrays
    constructor
    · refine ManagerCall.returns_of_verdict hR fun id' s' verdict htarget hl' hverdict => ?_
      cases hsessionId.symm.trans htarget
      cases hl.symm.trans hl'
      cases hverdict
      exact hdefined
    · intro l ms' hstep halloc hcall htime
      rw [← hacceptable]
      rcases hjudged l ms' hstep halloc hcall htime with ⟨resp, hreject, hreply, hsame⟩ | ⟨s₁, haccept, hok⟩
      · have hno : ¬ refreshVerdict L header s = .accept s := by rw [hreject]; exact Verdict.noConfusion
        rw [refreshVerdict_reject_bound hbound hreject] at hreply
        rw [hreply]
        have hnotok : ¬ (replyOf (0, challengeResponse s)).Ok :=
          fun hok => absurd (show (403 : Int) = 200 from hok.2) (by decide)
        exact ⟨⟨fun hok => absurd hok hnotok, fun hacc => absurd hacc hno⟩, fun _ => ⟨rfl, rfl, hsame⟩⟩
      · obtain ⟨-, -, -, -, -, -, -, -, -, rfl⟩ := refreshVerdict_eq_accept.mp haccept
        exact ⟨⟨fun _ => haccept, fun _ => hok⟩, fun hno => absurd haccept hno⟩

/-! The token of the registered algorithm; one of the other, and one with a key that is no key. -/

/-- A token of algorithm RS256, for a session registered with ES256. -/
def otherToken : CStr := proofToken (proofHeader "RS256" none) (proofPayload (drawnChallenge 1) none) deviceSignature

/-- A token with a string for a key. -/
def keyedToken : CStr :=
  proofToken (proofHeader "ES256" (some (.str "x"))) (proofPayload (drawnChallenge 1) none) deviceSignature

def otherExtern : Extern :=
  Extern.knowing [deviceJwk, proofHeader "ES256" (some deviceJwk), proofHeader "ES256" none, proofHeader "RS256" none,
    proofHeader "ES256" (some (.str "x")), proofPayload (drawnChallenge 0) none, proofPayload (drawnChallenge 1) none]
    fun _ _ => true

/-- The store after a registration. -/
def registeredStore : MemoryStore := ⟨[deviceSession (drawnChallenge 1)], 8⟩

theorem exists_registered : ∃ h, ManagerRun otherExtern (plainConfig 0) h registeredStore ∧ Allocates h := by
  have hplay : (playCalls otherExtern (plainConfig 0) [(0, some 0, .initiate "u" none),
      (1, some 1, .register (some zeroId) (some (registrationToken (drawnChallenge 0))))] MemoryStore.empty).map
      (fun r => r.2) = some registeredStore := by
    decide +kernel
  obtain ⟨h, ms, hrun, halloc, rfl⟩ := exists_run hplay
  exact ⟨h, hrun, halloc⟩

/-- A refresh of the registered session, as a step. -/
theorem exists_refresh (token : CStr) (status : Int)
    (hplay : (playCalls otherExtern (plainConfig 0) [(2, some 2, .refresh (some zeroId) (some token))]
      registeredStore).map (fun r => r.1.map fun t => (t.label.call, t.label.reply.rc, t.label.reply.resp.statusCode)) =
        some [(.refresh (some zeroId) (some token), 0, status)]) :
    ∃ l ms', managerStep otherExtern (plainConfig 0) registeredStore l ms' ∧ Obeys (onEnv allocOk) l.events ∧
      l.call = .refresh (some zeroId) (some token) ∧ l.reply.rc = 0 ∧ l.reply.resp.statusCode = status := by
  obtain ⟨l, ms', hstep, hobeys, hl⟩ := exists_step hplay
  simp only [Prod.mk.injEq] at hl
  exact ⟨l, ms', hstep, hobeys, hl⟩

/-- Whether a token has a key, its algorithm and its challenge. -/
def presentedBy (L : Extern) (token : CStr) : Option (Bool × Option CStr × Option CStr) :=
  (decodeParts L token).map fun r => ((r.1.getObjectItem "jwk").isSome, Json.asString (r.1.getObjectItem "alg"),
    Json.asString (r.2.1.getObjectItem "jti"))

theorem Presents.presentedBy {L : Extern} {s : Session} {token : CStr} {jwk : Option Json} {algorithm challenge : CStr}
    (h : Presents L s token jwk algorithm challenge) :
    presentedBy L token = some (jwk.isSome, some algorithm, some challenge) := by
  obtain ⟨_, _, _, _, _, _, hthree, hheader, hpayload, rfl, -, halg, -, hp, -⟩ := h
  rw [OpenDbsc.presentedBy, decodeParts_eq_some.mpr ⟨_, _, hthree, hheader, hpayload⟩, Option.map_some, halg, hp]

theorem not_strays {L : Extern} {s : Session} {token algorithm challenge : CStr}
    (h : presentedBy L token = some (false, some algorithm, some challenge)) (halg : s.algorithm = some algorithm)
    (hs : s.challenge ≠ none) : ¬ Strays L s token := by
  intro hstrays
  obtain ⟨jwk, algorithm', challenge', hpresents, -, hodd⟩ := hstrays
  have hread := h.symm.trans hpresents.presentedBy
  simp only [Option.some.injEq, Prod.mk.injEq] at hread
  obtain ⟨hjwk, rfl, rfl⟩ := hread
  rcases hodd with hnone | ⟨-, hodd | hodd⟩
  · exact hs hnone
  · exact hodd (Option.not_isSome_iff_eq_none.mp (by rw [← hjwk]; exact Bool.false_ne_true))
  · exact hodd halg

/-- The registered session is refreshed, and a token for the challenge before is refused. -/
theorem refresh_exact_granted :
    (∃ l ms', managerStep otherExtern (plainConfig 0) registeredStore l ms' ∧ l.reply.Ok ∧
      Acceptable otherExtern (deviceSession (drawnChallenge 1)) (refreshToken (drawnChallenge 1))) ∧
    ∃ l ms', managerStep otherExtern (plainConfig 0) registeredStore l ms' ∧ l.reply.rc = 0 ∧
      l.reply.resp.statusCode = 403 ∧ (ms'.sessions : Multiset Session) = registeredStore.sessions := by
  obtain ⟨h, hrun, halloc⟩ := exists_registered
  obtain ⟨m, hR⟩ := hrun.represents halloc
  have hmem : deviceSession (drawnChallenge 1) ∈ registeredStore.sessions := List.mem_singleton_self _
  have hsessionId : nonEmpty (some zeroId) = some zeroId := rfl
  have hread : ∀ challenge ∈ [drawnChallenge 0, drawnChallenge 1],
      presentedBy otherExtern (refreshToken challenge) = some (false, some "ES256".toList, some challenge) := by
    decide +kernel
  have hstrays : ∀ challenge ∈ [drawnChallenge 0, drawnChallenge 1],
      ¬ Strays otherExtern (deviceSession (drawnChallenge 1)) (refreshToken challenge) := fun challenge hc =>
    not_strays (hread challenge hc) rfl (Option.some_ne_none _)
  constructor
  · obtain ⟨l, ms', hstep, hobeys, hcall, hok⟩ :=
      exists_refresh (refreshToken (drawnChallenge 1)) 200 (by decide +kernel)
    have hexact := ((refresh_exact hR hmem rfl rfl hsessionId rfl).mpr
      (hstrays _ (List.mem_cons_of_mem _ List.mem_cons_self))).2 l ms' hstep hobeys hcall fun _ _ _ _ _ _ => rfl
    exact ⟨l, ms', hstep, hok, hexact.1.mp hok⟩
  · obtain ⟨l, ms', hstep, hobeys, hcall, -, -⟩ :=
      exists_refresh (refreshToken (drawnChallenge 0)) 403 (by decide +kernel)
    have hexact := ((refresh_exact hR hmem rfl rfl hsessionId rfl).mpr (hstrays _ List.mem_cons_self)).2 l ms' hstep
      hobeys hcall fun _ _ _ _ _ _ => rfl
    refine ⟨l, ms', hstep, hexact.2 fun hacc => ?_⟩
    obtain ⟨_, _, hpresents, -, hs⟩ := hacc
    have hjti := (hread _ List.mem_cons_self).symm.trans hpresents.presentedBy
    simp only [Option.some.injEq, Prod.mk.injEq] at hjti
    rw [← hjti.2.2] at hs
    exact absurd hs (by decide +kernel)

/-- Both are granted. -/
theorem refresh_strays_granted : ∃ h, ManagerRun otherExtern (plainConfig 0) h registeredStore ∧ Allocates h ∧
    ∃ s ∈ registeredStore.sessions, s.state = .bound ∧ s.hasExpires = false ∧ ∀ token ∈ [otherToken, keyedToken],
      ∃ l ms', managerStep otherExtern (plainConfig 0) registeredStore l ms' ∧ Obeys (onEnv allocOk) l.events ∧
        l.call = .refresh s.id (some token) ∧ l.reply.Ok ∧ ¬ Acceptable otherExtern s token := by
  obtain ⟨h, hrun, halloc⟩ := exists_registered
  have hother : presentedBy otherExtern otherToken = some (false, some "RS256".toList, some (drawnChallenge 1)) := by
    decide +kernel
  have hkeyed : presentedBy otherExtern keyedToken = some (true, some "ES256".toList, some (drawnChallenge 1)) := by
    decide +kernel
  refine ⟨h, hrun, halloc, _, List.mem_singleton_self _, rfl, rfl, fun token htoken => ?_⟩
  rcases List.mem_pair.mp htoken with rfl | rfl
  · obtain ⟨l, ms', hstep, hobeys, hcall, hok⟩ := exists_refresh otherToken 200 (by decide +kernel)
    refine ⟨l, ms', hstep, hobeys, hcall, hok, fun hacc => ?_⟩
    obtain ⟨_, _, hpresents, halg, -⟩ := hacc
    cases hother.symm.trans hpresents.presentedBy
    exact absurd halg (by decide)
  · obtain ⟨l, ms', hstep, hobeys, hcall, hok⟩ := exists_refresh keyedToken 200 (by decide +kernel)
    refine ⟨l, ms', hstep, hobeys, hcall, hok, fun hacc => ?_⟩
    obtain ⟨_, _, hpresents, -⟩ := hacc
    cases hkeyed.symm.trans hpresents.presentedBy

end OpenDbsc
