/-
Every call returns.

The one thing a call can fail to come back from is comparing a token's
challenge with a null one. No run stores a session without a challenge, so in
every reachable state every call returns, whatever the clock and the entropy
answer and whatever it is given (`ManagerCall.returns`).
-/
import OpenDbsc.Effects.Safe
import OpenDbsc.ManagerRun

namespace OpenDbsc

open Effects Records Prog

/-- Memory enough, and an answer to everything that has one. -/
structure Runtime (env : Nat → (o : Sys.Op) → Option (Sys.Ans o)) : Prop where
  answers : ∀ n o, Nonempty (Sys.Ans o) → (env n o).isSome = true
  allocates : ∀ n o x, allocOk o = some x → env n o = some x

/-- The call is played to its end by every runtime. -/
def ManagerCall.Returns (L : Extern) (cfg : ManagerConfig) (call : ManagerCall) (ms : MemoryStore) : Prop :=
  ∀ env, Runtime env → (play env memory 0 (call.program L cfg) ms).isSome = true

theorem runtime_runtimeAt (now : Int) (byte : Option UInt8) : Runtime (runtimeAt now byte) where
  answers n o h := by
    cases o with
    | undefined => exact nomatch h.some
    | _ => rfl
  allocates := runtimeAt_allocOk

/-! ## The runtime's part -/

theorem answerable_time : time.Answerable := answerable_perform (S := Sys) (o := .time) ⟨0⟩

theorem answerable_clockGettime : clockGettime.Answerable := answerable_perform (S := Sys) (o := .clockGettime) ⟨none⟩

theorem answerable_getentropy (n : Nat) : (getentropy n).Answerable :=
  answerable_perform (S := Sys) (o := .getentropy n) ⟨none⟩

theorem answerable_emitEvent (cfg : ManagerConfig) (type : CStr) (user sessionId detail : Option CStr) :
    (emitEvent cfg type user sessionId detail).Answerable := by
  unfold emitEvent
  split
  · exact answerable_perform (S := Sys) (o := .onEvent type user sessionId detail) ⟨()⟩
  · exact answerable_pure ()

theorem answerable_applySessionTtl (s : Session) (ttlSeconds : Int) : (applySessionTtl s ttlSeconds).Answerable := by
  unfold applySessionTtl
  split
  · exact answerable_time.bind fun _ => answerable_pure _
  · exact answerable_pure _

theorem answerable_sessionNewId (L : Extern) : (sessionNewId L).Answerable := by
  refine answerable_clockGettime.bind fun ts => ?_
  cases ts with
  | none => exact answerable_pure none
  | some ts =>
    refine (answerable_getentropy 10).bind fun bytes => ?_
    cases bytes with
    | none => exact answerable_pure none
    | some bytes => exact answerable_pure _

/-! ## The memory store's part -/

theorem answerable_memoryStoreIsExpired (s : Session) : (memoryStoreIsExpired s).Answerable := by
  unfold memoryStoreIsExpired
  split
  · exact answerable_pure false
  · exact answerable_time.bind fun _ => answerable_pure _

theorem answerable_sweep {test : Session → Prog Sys Bool} (htest : ∀ s, (test s).Answerable) (xs : List Session)
    (i : Nat) : (sweep test xs i).Answerable := by
  generalize hn : xs.length - i = n
  induction n generalizing xs i with
  | zero =>
    rw [sweep_ge test (by omega)]
    exact answerable_pure xs
  | succ n ih =>
    have hi : i < xs.length := by omega
    rw [sweep_lt test hi]
    refine (htest xs[i]).bind fun b => ?_
    cases b with
    | true => exact ih (swapRemove xs i) i (by rw [length_swapRemove hi]; omega)
    | false => exact ih xs (i + 1) (by omega)

theorem answerable_memory (o : StoreOp) (ms : MemoryStore) : ((memory o ms).assuming allocOk).Answerable := by
  cases o with
  | create s =>
    simp only [memory, memoryStoreCreate]
    split
    · exact answerable_pure _
    · split <;> simp
  | get id =>
    simp only [memory, memoryStoreGet]
    split
    · exact answerable_pure _
    · simp only [assuming_bind, assuming_memoryStoreIsExpired]
      refine (answerable_memoryStoreIsExpired _).bind fun b => ?_
      cases b <;> simp
  | update s =>
    simp only [memory, memoryStoreUpdate]
    split
    · exact answerable_pure _
    · split <;> simp
  | delete id => exact answerable_pure _
  | getByUserId userId =>
    simp only [memory, memoryStoreGetByUserId]
    split
    · exact answerable_pure _
    · simp only [assuming_bind, memoryStoreExpire, memoryStoreSweep, assuming_sweep, assuming_memoryStoreIsExpired,
        assuming_pure]
      refine ((answerable_sweep answerable_memoryStoreIsExpired _ _).bind fun _ => answerable_pure _).bind fun ms' => ?_
      split <;> simp
  | deleteByUserId userId =>
    simp only [memory, memoryStoreDeleteByUserId]
    split
    · exact answerable_pure _
    · simp only [assuming_bind, memoryStoreSweep, assuming_sweep, assuming_pure]
      exact ((answerable_sweep (fun _ => answerable_pure _) _ _).bind fun _ => answerable_pure _).bind
        fun _ => answerable_pure _

/-! ## Every request -/

/-- Every session has a challenge. -/
def Challenged (m : SessionMap) : Prop := ∀ s ∈ m.rows, s.challenge ≠ none

section

variable {σ : Type} {B : Comp Sys StoreSig σ} (L : Extern) (cfg : ManagerConfig)

theorem safe_sys {α : Type} {p : Prog Sys α} (hp : p.Answerable) (st : σ) : Safe B (sys p) st := hp.safe_lift st

theorem safe_renew (type detail : CStr) (s : Session) (st : σ) : Safe B (renew L cfg type detail s) st := by
  refine (safe_sys (answerable_getentropy 32) st).bind fun _ _ st₁ _ => ?_
  refine (safe_sys (answerable_applySessionTtl _ _) st₁).bind fun _ s' st₂ _ => ?_
  refine (safe_call (T := StoreSig) (.update s') st₂).bind fun _ code st₃ _ => ?_
  split
  · exact safe_pure _ _
  · exact (safe_sys (answerable_emitEvent ..) st₃).bind fun _ _ _ _ => safe_pure _ _

theorem challengeVerdict_ne_undefined {s : Session} {proof : ProofJWT} {next : Verdict} (hs : s.challenge ≠ none)
    (hnext : next ≠ .undefined) : challengeVerdict s proof next ≠ .undefined := by
  unfold challengeVerdict
  intro h
  split at h
  · cases h
  · rename_i hnone
    exact hs hnone
  · split at h
    · exact hnext h
    · cases h

theorem registerVerdict_ne_undefined {header : Option CStr} {s : Session} (hs : s.challenge ≠ none) :
    registerVerdict L cfg header s ≠ .undefined := by
  unfold registerVerdict
  split
  · simp
  · split
    · simp
    · split
      · simp
      · split
        · refine challengeVerdict_ne_undefined hs ?_
          split <;> simp
        · simp

theorem refreshVerdict_ne_undefined {header : Option CStr} {s : Session} (hs : s.challenge ≠ none) :
    refreshVerdict L header s ≠ .undefined := by
  unfold refreshVerdict
  split
  · simp
  · split
    · split
      · simp
      · split
        · exact challengeVerdict_ne_undefined hs (by simp)
        · simp
    · simp

end

section

variable {L : Extern} {cfg : ManagerConfig} {m : SessionMap}

theorem safe_proofRequest {verdict : Session → Verdict} {id : Option CStr}
    (hverdict : ∀ id' s, nonEmpty id = some id' → m.lookup (some id') = some s → verdict s ≠ .undefined)
    (missing : ManagerResponse) (type : CStr) (detail : Session → CStr) :
    Safe SessionMap.store (proofRequest L cfg id missing verdict type detail) m := by
  unfold proofRequest
  cases hid : nonEmpty id with
  | none => exact safe_pure _ _
  | some id' =>
    refine (safe_call (T := StoreSig) (.get (some id')) m).bind fun tr out m' hex => ?_
    cases out with
    | none => exact safe_pure _ _
    | some s =>
      obtain ⟨_, -, hB⟩ := exec_storeGet.mp hex
      have hl : m.lookup (some id') = some s := by
        rcases SessionMap.store_get hB with ⟨hs, -⟩ | ⟨_, hs, -⟩ | ⟨_, hs, -, hl, -⟩
        · cases hs
        · cases hs
        · rw [hl, hs]
      show Safe SessionMap.store (runVerdict L cfg type detail (verdict s)) m'
      cases hv : verdict s with
      | reject resp => exact safe_pure _ _
      | undefined => exact absurd hv (hverdict id' s hid hl)
      | accept s₁ => exact safe_renew L cfg type _ s₁ m'

theorem safe_program {call : ManagerCall}
    (hm : ∀ id s verdict, call.target = some id → m.lookup (some id) = some s → call.verdict L cfg = some verdict →
      verdict s ≠ .undefined) : Safe SessionMap.store ((call.program L cfg).assuming (onEnv allocOk)) m := by
  cases call with
  | initiate userId outSession =>
    simp only [ManagerCall.program, assuming_bind, assuming_managerInitiate, bind_assoc, assuming_pure]
    refine (safe_sys (answerable_sessionNewId L) m).bind fun _ id m₁ _ => ?_
    cases id with
    | none => exact safe_pure _ _
    | some id =>
      simp only [bind_assoc]
      refine (safe_sys (answerable_getentropy 32) m₁).bind fun _ _ m₂ _ => ?_
      refine (safe_sys answerable_time m₂).bind fun _ _ m₃ _ => ?_
      refine (safe_sys (answerable_applySessionTtl _ _) m₃).bind fun _ s m₄ _ => ?_
      refine (safe_call (T := StoreSig) (.create s) m₄).bind fun _ code m₅ _ => ?_
      split
      · exact safe_pure _ _
      · simp only [bind_assoc]
        exact (safe_sys (answerable_emitEvent ..) m₅).bind fun _ _ _ _ => safe_pure _ _
  | register id header =>
    simp only [ManagerCall.program, assuming_map, assuming_managerRegister]
    exact (safe_proofRequest (fun id' s hid hl => hm id' s _ hid hl rfl) ..).map _
  | refresh id header =>
    simp only [ManagerCall.program, assuming_map, assuming_managerRefresh]
    exact (safe_proofRequest (fun id' s hid hl => hm id' s _ hid hl rfl) ..).map _
  | close id =>
    simp only [ManagerCall.program, assuming_map, assuming_managerClose]
    refine Safe.map _ ?_
    split
    · exact safe_pure _ _
    · refine (safe_call (T := StoreSig) (.get _) m).bind fun _ out m₁ _ => ?_
      cases out with
      | none => exact safe_pure _ _
      | some s =>
        refine (safe_call (T := StoreSig) (.delete _) m₁).bind fun _ code m₂ _ => ?_
        split
        · exact safe_pure _ _
        · exact (safe_sys (answerable_emitEvent ..) m₂).bind fun _ _ _ _ => safe_pure _ _
  | getSession id =>
    simp only [ManagerCall.program, assuming_bind, assuming_managerGetSession, assuming_pure]
    exact (safe_call (T := StoreSig) (.get (some id)) m).bind fun _ _ _ _ => safe_pure _ _

end

/-! ## Every run -/

theorem Challenged.insert {m : SessionMap} (hm : Challenged m) {s : Session} (hs : s.challenge ≠ none) :
    Challenged (m.insert s) := by
  intro s' hs'
  rcases Table.mem_insert.mp hs' with h | ⟨h, -⟩
  · rwa [h]
  · exact hm s' h

theorem Challenged.step {L : Extern} {cfg : ManagerConfig} {m m' : SessionMap} {l : Handled} (hm : Challenged m)
    (ho : Outcome L cfg m l m') : Challenged m' := by
  have herase : ∀ id, Challenged (m.erase id) := fun id s hs => hm s (Table.mem_erase.mp hs).1
  cases ho with
  | idle => exact hm
  | absent => exact hm
  | expired => exact herase _
  | found _ _ _ ht =>
    cases ht with
    | shown => exact hm
    | rejected => exact hm
    | closed => exact herase _
    | renewed _ _ _ hs' =>
      refine hm.insert ?_
      rw [hs', (Session.withTtl_keeps ..).2.2.2.2.1]
      exact Option.some_ne_none _
  | initiated _ _ _ hs =>
    refine hm.insert ?_
    rw [hs, (Session.withTtl_keeps ..).2.2.2.2.1]
    exact Option.some_ne_none _

/-- No run stores a session without a challenge. -/
theorem ManagerRun.challenged {L : Extern} {cfg : ManagerConfig} {h : List (Transition MemoryStore Handled)}
    {ms : MemoryStore} (hrun : ManagerRun L cfg h ms) (halloc : Allocates h) :
    ∃ m, ms.Represents m ∧ Challenged m :=
  Run.outcomes (P := fun _ m => Challenged m) hrun halloc MemoryStore.Represents.empty
    (fun s hs => absurd hs (Multiset.notMem_zero s)) fun _ hm ho _ => hm.step ho

/-- A call whose verdict on the session it finds is defined returns. -/
theorem ManagerCall.returns_of_verdict {L : Extern} {cfg : ManagerConfig} {ms : MemoryStore} {m : SessionMap}
    {call : ManagerCall} (hR : ms.Represents m)
    (hm : ∀ id s verdict, call.target = some id → m.lookup (some id) = some s → call.verdict L cfg = some verdict →
      verdict s ≠ .undefined) : call.Returns L cfg ms :=
  fun _ henv => Safe.play (fun hR hB ho => hR.call hB ho) answerable_memory henv.answers henv.allocates
    (safe_program hm) hR 0

/-- A call on a session that has a challenge returns, whatever else is stored. -/
theorem ManagerCall.returns_of_challenge {L : Extern} {cfg : ManagerConfig} {ms : MemoryStore} {m : SessionMap}
    {call : ManagerCall} (hR : ms.Represents m)
    (hm : ∀ id s, call.target = some id → m.lookup (some id) = some s → s.challenge ≠ none) :
    call.Returns L cfg ms := by
  refine ManagerCall.returns_of_verdict hR fun id s verdict hid hl hverdict => ?_
  cases call with
  | register id' header =>
    cases hverdict
    exact registerVerdict_ne_undefined L cfg (hm id s hid hl)
  | refresh id' header =>
    cases hverdict
    exact refreshVerdict_ne_undefined L (hm id s hid hl)
  | initiate | close | getSession => cases hverdict

/-- **Every call returns**, in every reachable state. -/
theorem ManagerCall.returns {L : Extern} {cfg : ManagerConfig} {h : List (Transition MemoryStore Handled)}
    {ms : MemoryStore} (hrun : ManagerRun L cfg h ms) (halloc : Allocates h) (call : ManagerCall) :
    call.Returns L cfg ms := by
  obtain ⟨m, hR, hm⟩ := hrun.challenged halloc
  exact ManagerCall.returns_of_challenge hR fun _ s _ hl => hm s (Table.lookup_mem hl)

end OpenDbsc
