/-
Key pinning.

A bound session keeps its state, key, algorithm, user and creation time until
it ends (`bound_pinned`): until it is closed, expires, or an initiate draws its
id again and puts a new session in its place. Only an accepted register call
binds a session.
-/
import OpenDbsc.Possession

namespace OpenDbsc

open Effects Records Prog

/-- What is pinned. -/
structure Pinned (s s' : Session) : Prop where
  id : s'.id = s.id
  userId : s'.userId = s.userId
  state : s'.state = s.state
  publicKey : s'.publicKey = s.publicKey
  algorithm : s'.algorithm = s.algorithm
  createdAt : s'.createdAt = s.createdAt

theorem Pinned.refl (s : Session) : Pinned s s := ⟨rfl, rfl, rfl, rfl, rfl, rfl⟩

theorem Pinned.trans {s₁ s₂ s₃ : Session} (h : Pinned s₁ s₂) (h' : Pinned s₂ s₃) : Pinned s₁ s₃ :=
  ⟨h'.id.trans h.id, h'.userId.trans h.userId, h'.state.trans h.state, h'.publicKey.trans h.publicKey,
    h'.algorithm.trans h.algorithm, h'.createdAt.trans h.createdAt⟩

/-- Renewing a bound session pins it. -/
theorem Pinned.renewed (s : Session) (challenge : Option CStr) (ttlSeconds now : Int) :
    Pinned s (({ s with challenge } : Session).withTtl ttlSeconds now) := by
  obtain ⟨huser, hstate, hkey, halg, -, hcreated⟩ := Session.withTtl_keeps { s with challenge } ttlSeconds now
  exact ⟨Session.withTtl_id .., huser, hstate, hkey, halg, hcreated⟩

/-- A call on `id` that finds its session past its expiry. -/
def Expires (t : Transition MemoryStore Handled) (id : CStr) : Prop :=
  t.label.call.target = some id ∧ ∃ s ∈ t.pre.sessions, s.id = some id ∧ s.hasExpires = true ∧
    ∃ now ∈ clockReadings t.label.events, s.expiresAt < now

/-- A call after which the session `id` is not what it was. -/
def Ends (cfg : ManagerConfig) (t : Transition MemoryStore Handled) (id : CStr) : Prop :=
  t.label.Closes id ∨ Expires t id ∨ t.label.Initiates cfg id

section

variable {L : Extern} {cfg : ManagerConfig} {ms ms' : MemoryStore} {m m' : SessionMap} {l : Handled} {id : CStr}

/-- A bound session is pinned by every call that does not end it. -/
theorem pinned_step (hR : ms.Represents m) (ho : Outcome L cfg m l m') {s : Session}
    (hl : m.lookup (some id) = some s) (hbound : s.state = .bound) :
    Ends cfg ⟨ms, l, ms'⟩ id ∨ ∃ s', m'.lookup (some id) = some s' ∧ Pinned s s' := by
  cases ho.fate id with
  | kept _ hkept => exact .inr ⟨s, hkept.trans hl, Pinned.refl s⟩
  | expired _ hlooks hl' hexp hnow hlt _ =>
    obtain ⟨hmem, hid⟩ := hR.mem_of_lookup hl'
    exact .inl (.inr (.inl ⟨hlooks.1, _, hmem, hid, hexp, _, hlooks.reading hnow, hlt⟩))
  | closed hcloses => exact .inl (.inl hcloses)
  | initiated hinit => exact .inl (.inr (.inr hinit))
  | @renewed _ s₀ verdict s₁ bytes now s' _ _ hl' hcall haccept _ hs' _ hnew =>
    cases hl.symm.trans hl'
    have heq : s₁ = s := by
      cases hc : l.call with
      | register sessionId header =>
        rw [hc] at hcall
        cases hcall
        obtain ⟨hactive, -⟩ := registerVerdict_eq_accept.mp haccept
        rw [hbound] at hactive
        cases hactive
      | refresh sessionId header =>
        rw [hc] at hcall
        cases hcall
        obtain ⟨-, -, -, -, -, -, -, -, -, heq⟩ := refreshVerdict_eq_accept.mp haccept
        exact heq
      | _ =>
        rw [hc] at hcall
        cases hcall
    refine .inr ⟨s', hnew, ?_⟩
    rw [hs', heq]
    exact Pinned.renewed ..

/-- A session that is bound after a call was bound before it, or is by it. -/
theorem bound_step (ho : Outcome L cfg m l m') {s' : Session} (hl' : m'.lookup (some id) = some s')
    (hbound : s'.state = .bound) :
    l.Registers id ∨ ∃ s, m.lookup (some id) = some s ∧ s.state = .bound := by
  cases ho.fate id with
  | kept _ hkept => exact .inr ⟨s', hkept.symm.trans hl', hbound⟩
  | expired _ _ _ _ _ _ hgone => rw [hgone] at hl'; cases hl'
  | closed _ _ _ hgone => rw [hgone] at hl'; cases hl'
  | initiated _ _ _ hs _ hnew =>
    cases hnew.symm.trans hl'
    rw [hs, (Session.withTtl_keeps ..).2.1] at hbound
    cases hbound
  | @renewed _ s verdict s₁ _ _ _ hrenews _ hl hcall haccept =>
    cases hc : l.call with
    | register sessionId header => exact .inl ⟨hrenews.1, congrArg ManagerCall.kind hc, hrenews.2.2⟩
    | refresh sessionId header =>
      rw [hc] at hcall
      cases hcall
      obtain ⟨hstate, -⟩ := refreshVerdict_eq_accept.mp haccept
      exact .inr ⟨s, hl, hstate⟩
    | _ =>
      rw [hc] at hcall
      cases hcall

end

/-- A session no call touches, and none finds expired, stays as it is. -/
theorem untouched_run {L : Extern} {cfg : ManagerConfig} {h : List (Transition MemoryStore Handled)}
    {ms ms' : MemoryStore} {m : SessionMap} {id : CStr} {s : Session} (hrun : Run (managerStep L cfg) ms h ms')
    (halloc : Allocates h) (hR : ms.Represents m) (hl : m.lookup (some id) = some s)
    (hquiet : ∀ t ∈ h, ¬ t.label.Touches cfg id ∧ ¬ Expires t id) :
    ∃ m', ms'.Represents m' ∧ m'.lookup (some id) = some s := by
  let P : List (Transition MemoryStore Handled) → SessionMap → Prop := fun h m =>
    (∀ t ∈ h, ¬ t.label.Touches cfg id ∧ ¬ Expires t id) → m.lookup (some id) = some s
  have hstep : ∀ {h ms m l ms' m'}, MemoryStore.Represents ms m → P h m → Outcome L cfg m l m' →
      MemoryStore.Represents ms' m' → P (h ++ [⟨ms, l, ms'⟩]) m' := by
    intro h ms m l ms' m' hR hP ho _ hno
    have hwas := hP fun t ht => hno t (List.mem_append_left _ ht)
    obtain ⟨htouches, hexpires⟩ := hno _ (List.mem_append_right _ List.mem_cons_self)
    cases ho.fate id with
    | kept _ hkept => exact hkept.trans hwas
    | expired _ hlooks hl' hexp hnow hlt _ =>
      obtain ⟨hmem, hid⟩ := hR.mem_of_lookup hl'
      exact absurd ⟨hlooks.1, _, hmem, hid, hexp, _, hlooks.reading hnow, hlt⟩ hexpires
    | renewed hrenews => exact absurd (.inr (.inl hrenews)) htouches
    | closed hcloses => exact absurd (.inr (.inr hcloses)) htouches
    | initiated hinit => exact absurd (.inl hinit) htouches
  obtain ⟨m', hR', hP⟩ := Run.outcomes hrun halloc hR (P := P) (fun _ => hl) hstep
  exact ⟨m', hR', hP hquiet⟩

/-- **Key pinning.** From any reachable state on, a bound session keeps what is
pinned until it is closed, expires or has its id drawn again; and a session is
bound after a call only if it was before it, or the call is a register call on
its id, granted. -/
theorem bound_pinned {L : Extern} {cfg : ManagerConfig} {h₁ h₂ : List (Transition MemoryStore Handled)}
    {ms₁ ms₂ : MemoryStore} (hrun₁ : ManagerRun L cfg h₁ ms₁) (halloc₁ : Allocates h₁)
    (hrun₂ : Run (managerStep L cfg) ms₁ h₂ ms₂) (halloc₂ : Allocates h₂) :
    (∀ s ∈ ms₁.sessions, s.state = .bound → (∀ t ∈ h₂, ∀ id, s.id = some id → ¬ Ends cfg t id) →
      ∃ s' ∈ ms₂.sessions, Pinned s s') ∧
    (∀ t ∈ h₂, ∀ s' ∈ t.post.sessions, s'.state = .bound → (∃ id, s'.id = some id ∧ t.label.Registers id) ∨
      ∃ s ∈ t.pre.sessions, s.id = s'.id ∧ s.state = .bound) := by
  obtain ⟨m₁, hR₁⟩ := hrun₁.represents halloc₁
  constructor
  · intro s hs hbound hends
    obtain ⟨id, hid, hl⟩ := hR₁.lookup_of_mem hs
    let P : List (Transition MemoryStore Handled) → SessionMap → Prop := fun h m =>
      (∀ t ∈ h, ¬ Ends cfg t id) → ∃ s', m.lookup (some id) = some s' ∧ Pinned s s'
    have hstep : ∀ {h ms m l ms' m'}, MemoryStore.Represents ms m → P h m → Outcome L cfg m l m' →
        MemoryStore.Represents ms' m' → P (h ++ [⟨ms, l, ms'⟩]) m' := by
      intro h ms m l ms' m' hR hP ho _ hno
      obtain ⟨s', hl', hpin⟩ := hP fun t ht => hno t (List.mem_append_left _ ht)
      rcases pinned_step hR ho hl' (hpin.state.trans hbound) with hend | ⟨s'', hl'', hpin'⟩
      · exact absurd hend (hno _ (List.mem_append_right _ List.mem_cons_self))
      · exact ⟨s'', hl'', hpin.trans hpin'⟩
    obtain ⟨m₂, hR₂, hP⟩ := Run.outcomes hrun₂ halloc₂ hR₁ (P := P) (fun _ => ⟨s, hl, Pinned.refl s⟩) hstep
    obtain ⟨s', hl', hpin⟩ := hP fun t ht => hends t ht id hid
    exact ⟨s', (hR₂.mem_of_lookup hl').1, hpin⟩
  · let P : List (Transition MemoryStore Handled) → SessionMap → Prop := fun h _ =>
      ∀ t ∈ h, ∀ s' ∈ t.post.sessions, s'.state = .bound → (∃ id, s'.id = some id ∧ t.label.Registers id) ∨
        ∃ s ∈ t.pre.sessions, s.id = s'.id ∧ s.state = .bound
    have hstep : ∀ {h ms m l ms' m'}, MemoryStore.Represents ms m → P h m → Outcome L cfg m l m' →
        MemoryStore.Represents ms' m' → P (h ++ [⟨ms, l, ms'⟩]) m' := by
      intro h ms m l ms' m' hR hP ho hR' t ht s' hs' hbound
      rcases List.mem_append.mp ht with ht | ht
      · exact hP t ht s' hs' hbound
      · rw [List.mem_singleton.mp ht] at hs' ⊢
        obtain ⟨id, hid, hl'⟩ := hR'.lookup_of_mem hs'
        rcases bound_step ho hl' hbound with hreg | ⟨s, hl, hb⟩
        · exact .inl ⟨id, hid, hreg⟩
        · obtain ⟨hmem, hsid⟩ := hR.mem_of_lookup hl
          exact .inr ⟨s, hmem, hsid.trans hid.symm, hb⟩
    obtain ⟨_, _, hP⟩ := Run.outcomes hrun₂ halloc₂ hR₁ (P := P) (fun t ht => absurd ht List.not_mem_nil) hstep
    exact hP

/-- A refresh, answered 200, leaves the session pinned. -/
theorem bound_pinned_refresh : ∃ L cfg h₁ h₂ ms₁ ms₂, ManagerRun L cfg h₁ ms₁ ∧ Run (managerStep L cfg) ms₁ h₂ ms₂ ∧
    (h₂.map fun t => t.label.reply.resp.statusCode) = [200] ∧
    ∃ s ∈ ms₁.sessions, s.state = .bound ∧ ∃ s' ∈ ms₂.sessions, Pinned s s' ∧ s'.challenge ≠ s.challenge := by
  have hfirst : (playCalls (deviceExtern [drawnChallenge 0, drawnChallenge 1]) (plainConfig 0)
      [(0, some 0, .initiate "u" none),
        (1, some 1, .register (some zeroId) (some (registrationToken (drawnChallenge 0))))]
      MemoryStore.empty).map (fun r => r.2) = some ⟨[deviceSession (drawnChallenge 1)], 8⟩ := by
    decide +kernel
  have hsecond : (playCalls (deviceExtern [drawnChallenge 0, drawnChallenge 1]) (plainConfig 0)
      [(2, some 2, .refresh (some zeroId) (some (refreshToken (drawnChallenge 1))))]
      ⟨[deviceSession (drawnChallenge 1)], 8⟩).map
      (fun r => (r.1.map fun t => (t.pre.sessions, t.label.call, t.label.reply.resp.statusCode), r.2)) =
        some ([([deviceSession (drawnChallenge 1)],
          .refresh (some zeroId) (some (refreshToken (drawnChallenge 1))), 200)],
          ⟨[deviceSession (drawnChallenge 2)], 8⟩) := by
    decide +kernel
  obtain ⟨h₁, _, hrun₁, halloc₁, rfl⟩ := exists_run hfirst
  obtain ⟨h₂, ms₂, hrun₂, halloc₂, hsteps⟩ := exists_run hsecond
  simp only [Prod.mk.injEq] at hsteps
  obtain ⟨hsteps, rfl⟩ := hsteps
  obtain ⟨t, rfl, ht⟩ := List.map_eq_singleton_iff.mp hsteps
  simp only [Prod.mk.injEq] at ht
  obtain ⟨hpre, hcall, hstatus⟩ := ht
  have hends : ∀ id, ¬ Ends (plainConfig 0) t id := by
    intro id hend
    rcases hend with ⟨-, hclose, -⟩ | ⟨-, s, hs, -, hexp, -⟩ | ⟨-, hinit, -⟩
    · rw [hcall] at hclose; cases hclose
    · rw [hpre] at hs
      rw [List.mem_singleton.mp hs] at hexp
      cases hexp
    · rw [hcall] at hinit; cases hinit
  refine ⟨_, _, h₁, _, _, _, hrun₁, hrun₂, by rw [List.map_singleton, hstatus], deviceSession (drawnChallenge 1),
    List.mem_singleton_self _, rfl, ?_⟩
  obtain ⟨s', hs', hpin⟩ := (bound_pinned hrun₁ halloc₁ hrun₂ halloc₂).1 _ (List.mem_singleton_self _) rfl
    fun t' ht' id _ => by rw [List.mem_singleton.mp ht']; exact hends id
  refine ⟨s', hs', hpin, ?_⟩
  rw [List.mem_singleton.mp hs']
  decide +kernel

/-- An initiate that draws the id again takes a bound session's place. -/
theorem bound_replaced : ∃ L cfg h ms, ManagerRun L cfg h ms ∧ Allocates h ∧
    ∃ t ∈ h, t.label.call = .initiate "v" none ∧ ∃ s ∈ t.pre.sessions, s.state = .bound ∧ ∃ s' ∈ t.post.sessions,
      s'.id = s.id ∧ s'.state = .active ∧ s'.publicKey = none ∧ s'.userId ≠ s.userId := by
  have hplay : (playCalls (deviceExtern [drawnChallenge 0]) (plainConfig 0)
      [(0, some 0, .initiate "u" none),
        (1, some 1, .register (some zeroId) (some (registrationToken (drawnChallenge 0)))),
        (0, some 0, .initiate "v" none)] MemoryStore.empty).map
      (fun r => (r.1.map fun t => (t.label.call, t.pre.sessions, t.post.sessions)).getLast?) =
        some (some (.initiate "v" none, [deviceSession (drawnChallenge 1)],
          [freshSession zeroId "v" (drawnChallenge 0) 0])) := by
    decide +kernel
  obtain ⟨h, ms, hrun, halloc, hlast⟩ := exists_run hplay
  obtain ⟨t, ht, hcall⟩ := List.mem_map.mp (List.mem_of_getLast? hlast)
  simp only [Prod.mk.injEq] at hcall
  obtain ⟨hcall, hpre, hpost⟩ := hcall
  refine ⟨_, _, h, ms, hrun, halloc, t, ht, hcall, deviceSession (drawnChallenge 1), ?_, rfl,
    freshSession zeroId "v" (drawnChallenge 0) 0, ?_, rfl, rfl, rfl, by decide⟩
  · rw [hpre]; exact List.mem_singleton_self _
  · rw [hpost]; exact List.mem_singleton_self _

end OpenDbsc
