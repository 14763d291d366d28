/-
How long a session lives.

`lives` and `expiry` follow a session through the calls that were granted: it
lives from its initiate until it is closed, and its expiry is set by each call
that renews it. `session_lifetime` says a lookup succeeds exactly while it
lives and the clock has not passed the expiry. An expiry of 0 is the source's
mark for a session without one, also when a clock before 1970 makes it.
-/
import OpenDbsc.ManagerRun

namespace OpenDbsc

open Effects Records Prog

/-! ## What the answers say of a session -/

/-- Initiated, and not closed since. -/
def livesAfter (cfg : ManagerConfig) (id : CStr) (lives : Bool) (t : Transition MemoryStore Handled) : Bool :=
  if t.label.Initiates cfg id then true else if t.label.Closes id then false else lives

def lives (cfg : ManagerConfig) (id : CStr) (h : List (Transition MemoryStore Handled)) : Bool :=
  h.foldl (livesAfter cfg id) false

/-- A call that initiates or renews the session sets its expiry, by its last clock reading. -/
def expiryAfter (cfg : ManagerConfig) (id : CStr) (expiry : Int) (t : Transition MemoryStore Handled) : Int :=
  if t.label.Issues cfg id then
    (clockReadings t.label.events).getLastD 0 + cfg.sessionTtlSeconds
  else expiry

def expiry (cfg : ManagerConfig) (id : CStr) (h : List (Transition MemoryStore Handled)) : Int :=
  h.foldl (expiryAfter cfg id) 0

theorem lives_snoc (cfg : ManagerConfig) (id : CStr) (h : List (Transition MemoryStore Handled))
    (t : Transition MemoryStore Handled) : lives cfg id (h ++ [t]) = livesAfter cfg id (lives cfg id h) t := by
  simp [lives]

theorem expiry_snoc (cfg : ManagerConfig) (id : CStr) (h : List (Transition MemoryStore Handled))
    (t : Transition MemoryStore Handled) : expiry cfg id (h ++ [t]) = expiryAfter cfg id (expiry cfg id h) t := by
  simp [expiry]

section

variable {cfg : ManagerConfig} {t : Transition MemoryStore Handled} {id : CStr}

theorem livesAfter_untouched (h : ¬ t.label.Touches cfg id) (b : Bool) : livesAfter cfg id b t = b := by
  unfold livesAfter
  rw [if_neg fun hi => h (.inl hi), if_neg fun hc => h (.inr (.inr hc))]

theorem expiryAfter_untouched (h : ¬ t.label.Touches cfg id) (e : Int) : expiryAfter cfg id e t = e := by
  unfold expiryAfter
  rw [if_neg]
  intro hissues
  rcases hissues with hi | hr
  · exact h (.inl hi)
  · exact h (.inr (.inl hr))

theorem livesAfter_initiates (h : t.label.Initiates cfg id) (b : Bool) : livesAfter cfg id b t = true :=
  if_pos h

theorem livesAfter_renews (h : t.label.Renews id) (b : Bool) : livesAfter cfg id b t = b := by
  unfold livesAfter
  rw [if_neg fun hi => hi.not_renews h, if_neg fun hc => hc.not_issues cfg (.inr h)]

theorem livesAfter_closes (h : t.label.Closes id) (b : Bool) : livesAfter cfg id b t = false := by
  unfold livesAfter
  rw [if_neg fun hi => h.not_issues cfg (.inl hi), if_pos h]

end

/-! ## What the store says of it -/

/-- With this expiry, a session has not run out at clock value `now`. -/
def Lasts (cfg : ManagerConfig) (expiry now : Int) : Prop :=
  cfg.sessionTtlSeconds > 0 → expiry = 0 ∨ now ≤ expiry

theorem Lasts.earlier {cfg : ManagerConfig} {expiry now now' : Int} (h : Lasts cfg expiry now') (hle : now ≤ now') :
    Lasts cfg expiry now := by
  intro hpos
  rcases h hpos with h | h
  · exact .inl h
  · exact .inr (Int.le_trans hle h)

/-- A session's expiry is judged as the call that set it says. -/
theorem expiredAt_withTtl (cfg : ManagerConfig) (s : Session) (set now : Int) :
    (s.withTtl cfg.sessionTtlSeconds set).expiredAt now = false ↔ Lasts cfg (set + cfg.sessionTtlSeconds) now := by
  rw [Session.expiredAt_eq_false]
  unfold Session.withTtl Lasts
  by_cases hpos : cfg.sessionTtlSeconds > 0
  · rw [if_pos hpos]
    simp only [sessionSetExpiresAt, bne_iff_ne, hpos, forall_const]
    omega
  · rw [if_neg hpos]
    exact ⟨fun _ hc => absurd hc hpos, fun _ hc => nomatch hc⟩

/-- The store holds the sessions that live, save those found to have run out. -/
structure Accounts (cfg : ManagerConfig) (h : List (Transition MemoryStore Handled)) (m : SessionMap) : Prop where
  stored : ∀ {id s}, m.lookup (some id) = some s →
    lives cfg id h = true ∧ ∀ now, s.expiredAt now = false ↔ Lasts cfg (expiry cfg id h) now
  gone : ∀ {id}, m.lookup (some id) = none → lives cfg id h = true →
    ∃ t ∈ h, ∃ now ∈ clockReadings t.label.events, ¬ Lasts cfg (expiry cfg id h) now

theorem Accounts.nil (cfg : ManagerConfig) : Accounts cfg [] Table.empty where
  stored h := by rw [Table.lookup_empty] at h; cases h
  gone _ h := by cases h

section

variable {L : Extern} {cfg : ManagerConfig} {h : List (Transition MemoryStore Handled)} {ms ms' : MemoryStore}
  {m m' : SessionMap} {l : Handled} {id : CStr}

/-- The last reading of a call that sets an expiry is the one it is set by. -/
theorem getLastD_ttlReadings {notes : List Int} {now : Int} (hpos : cfg.sessionTtlSeconds > 0) :
    (notes ++ ttlReadings cfg.sessionTtlSeconds now).getLastD 0 = now := by
  rw [ttlReadings, if_pos hpos]
  simp

/-- What a call that sets the expiry leaves lasts as it says. -/
theorem stored_set (earlier : List Int) {set : Int} {s s' : Session}
    (hset : l.Issues cfg id)
    (hreadings : clockReadings l.events = earlier ++ ttlReadings cfg.sessionTtlSeconds set)
    (hs' : s' = s.withTtl cfg.sessionTtlSeconds set) (e now : Int) :
    s'.expiredAt now = false ↔ Lasts cfg (expiryAfter cfg id e ⟨ms, l, ms'⟩) now := by
  rw [hs', expiredAt_withTtl, expiryAfter, if_pos hset, hreadings]
  by_cases hpos : cfg.sessionTtlSeconds > 0
  · rw [getLastD_ttlReadings hpos]
  · exact ⟨fun _ hc => absurd hc hpos, fun _ hc => absurd hc hpos⟩

/-- One call keeps the account. -/
theorem Accounts.step (hacc : Accounts cfg h m) (ho : Outcome L cfg m l m') :
    Accounts cfg (h ++ [⟨ms, l, ms'⟩]) m' where
  stored := by
    intro id s' hl'
    rw [lives_snoc, expiry_snoc]
    cases ho.fate id with
    | kept huntouched hkept =>
      rw [livesAfter_untouched huntouched, expiryAfter_untouched huntouched]
      exact hacc.stored (hkept.symm.trans hl')
    | expired _ _ _ _ _ _ hgone => rw [hgone] at hl'; cases hl'
    | closed _ _ _ hgone => rw [hgone] at hl'; cases hl'
    | @renewed before s _ s₁ _ now _ hrenews hlooks hl _ _ _ hs' _ hnew =>
      cases hnew.symm.trans hl'
      rw [livesAfter_renews hrenews]
      refine ⟨(hacc.stored hl).1, stored_set before (.inr hrenews) ?_ hs' _⟩
      unfold clockReadings
      rw [hlooks.2, List.filterMap_append, clockReadingOf_map]
      exact congrArg (before ++ ·) (clockReadingOf_map _)
    | @initiated _ _ createdAt now _ hinit hnotes _ hs _ hnew =>
      cases hnew.symm.trans hl'
      refine ⟨livesAfter_initiates hinit _, stored_set [createdAt] (.inl hinit) ?_ hs _⟩
      unfold clockReadings
      rw [hnotes, clockReadingOf_map]
      rfl
  gone := by
    intro id hl' hlives
    rw [lives_snoc] at hlives
    rw [expiry_snoc]
    cases ho.fate id with
    | kept huntouched hkept =>
      rw [livesAfter_untouched huntouched] at hlives
      rw [expiryAfter_untouched huntouched]
      obtain ⟨t, ht, hrest⟩ := hacc.gone (hkept.symm.trans hl') hlives
      exact ⟨t, List.mem_append_left _ ht, hrest⟩
    | expired huntouched hlooks hl hexp hnow hlt _ =>
      rw [expiryAfter_untouched huntouched]
      refine ⟨_, List.mem_append_right _ List.mem_cons_self, _, hlooks.reading hnow, fun hlasts => ?_⟩
      have hlive := Session.expiredAt_eq_false.mp (((hacc.stored hl).2 _).mpr hlasts) hexp
      omega
    | closed hcloses =>
      rw [livesAfter_closes hcloses] at hlives
      cases hlives
    | renewed _ _ _ _ _ _ _ _ hnew => rw [hnew] at hl'; cases hl'
    | initiated _ _ _ _ _ hnew => rw [hnew] at hl'; cases hl'

end

/-- A session that is not there stays away, until it is initiated. -/
theorem absent_stays {L : Extern} {cfg : ManagerConfig} {h : List (Transition MemoryStore Handled)}
    {ms ms' : MemoryStore} {m : SessionMap} {id : CStr} (hrun : Run (managerStep L cfg) ms h ms') (halloc : Allocates h)
    (hR : ms.Represents m) (hl : m.lookup (some id) = none) (hno : ∀ t ∈ h, ¬ t.label.Initiates cfg id) :
    ∃ m', ms'.Represents m' ∧ m'.lookup (some id) = none := by
  let P : List (Transition MemoryStore Handled) → SessionMap → Prop := fun h m =>
    (∀ t ∈ h, ¬ t.label.Initiates cfg id) → m.lookup (some id) = none
  have hstep : ∀ {h ms m l ms' m'}, MemoryStore.Represents ms m → P h m → Outcome L cfg m l m' →
      MemoryStore.Represents ms' m' → P (h ++ [⟨ms, l, ms'⟩]) m' := by
    intro h ms m l ms' m' _ hP ho _ hno
    have hl := hP fun t ht => hno t (List.mem_append_left _ ht)
    cases ho.fate id with
    | kept _ hkept => exact hkept.trans hl
    | expired _ _ _ _ _ _ hgone => exact hgone
    | closed _ _ _ hgone => exact hgone
    | renewed _ _ hfound => rw [hfound] at hl; cases hl
    | initiated hinit => exact absurd hinit (hno _ (List.mem_append_right _ List.mem_cons_self))
  obtain ⟨m', hR', hP⟩ := Run.outcomes hrun halloc hR (P := P) (fun _ => hl) hstep
  exact ⟨m', hR', hP hno⟩

/-- **Exact session lifetime.** Over every run, a lookup at clock value `now`
succeeds exactly if the session lives and has not run out, when the clock has
not gone back; with no limit it succeeds while the session lives. And a session
whose lookup has failed is not found again, unless its id is initiated anew. -/
theorem session_lifetime {L : Extern} {cfg : ManagerConfig} {h : List (Transition MemoryStore Handled)}
    {ms ms' : MemoryStore} {l : Handled} (hrun : ManagerRun L cfg h ms) (hstep : managerStep L cfg ms l ms')
    (halloc : Allocates (h ++ [⟨ms, l, ms'⟩])) {id : CStr} {before after : List Int} {out : Option Session} {now : Int}
    (hlooks : l.LooksUp id before out after) (hnow : ∀ r ∈ before, r = now)
    (hclock : ∀ t ∈ h, ∀ r ∈ clockReadings t.label.events, r ≤ now) :
    (out ≠ none ↔ lives cfg id h = true ∧
      (cfg.sessionTtlSeconds > 0 → expiry cfg id h = 0 ∨ now ≤ expiry cfg id h)) ∧
    ∀ h₁ t h₂ before' after', h = h₁ ++ t :: h₂ → t.label.LooksUp id before' none after' →
      (∀ t' ∈ h₂, ¬ t'.label.Initiates cfg id) → out = none := by
  obtain ⟨halloc₁, halloc₂⟩ := halloc.of_append
  have hallocl := halloc₂ _ List.mem_cons_self
  constructor
  · obtain ⟨m, hR, hacc⟩ := Run.outcomes hrun halloc₁ MemoryStore.Represents.empty (Accounts.nil cfg)
      fun _ hacc ho _ => hacc.step ho
    obtain ⟨m', -, ho⟩ := managerStep_outcome hstep hallocl hR
    rcases ho.of_looksUp hlooks with ⟨rfl, -, hl⟩ | ⟨s, rfl, -, hl, hexp, r, hr, hlt⟩ | ⟨s, rfl, hl, hlive⟩
    · refine ⟨fun hc => absurd rfl hc, fun hlast => ?_⟩
      obtain ⟨t, ht, r, hr, hover⟩ := hacc.gone hl hlast.1
      exact absurd (Lasts.earlier hlast.2 (hclock t ht r hr)) hover
    · refine ⟨fun hc => absurd rfl hc, fun hlast => ?_⟩
      have hle := Session.expiredAt_eq_false.mp (((hacc.stored hl).2 now).mpr hlast.2) hexp
      have hrnow := hnow r hr
      omega
    · refine ⟨fun _ => ⟨(hacc.stored hl).1, ((hacc.stored hl).2 now).mp ?_⟩, fun _ => Option.some_ne_none s⟩
      refine Session.expiredAt_eq_false.mpr fun hexp => ?_
      obtain ⟨r, hr, hle⟩ := hlive hexp
      rwa [hnow r hr] at hle
  · intro h₁ t h₂ before' after' hsplit hfailed hno
    rw [hsplit] at hrun halloc₁
    obtain ⟨ms₁, hrun₁, hrun₂⟩ := Run.of_append hrun
    obtain ⟨-, hst, hrun₃⟩ := Run.of_cons hrun₂
    obtain ⟨hallocA, hallocB⟩ := halloc₁.of_append
    obtain ⟨m₁, hR₁⟩ := ManagerRun.represents hrun₁ hallocA
    obtain ⟨m₂, hR₂, ho⟩ := managerStep_outcome hst (hallocB t List.mem_cons_self) hR₁
    have hgone : m₂.lookup (some id) = none := by
      rcases ho.of_looksUp hfailed with ⟨-, rfl, hl⟩ | ⟨s, -, rfl, -⟩ | ⟨s, hs, -⟩
      · exact hl
      · exact Table.lookup_erase_self _ _
      · cases hs
    obtain ⟨m, hR, hl⟩ := absent_stays hrun₃ (fun t' ht' => hallocB t' (List.mem_cons_of_mem _ ht')) hR₂ hgone hno
    obtain ⟨m', -, ho'⟩ := managerStep_outcome hstep hallocl hR
    rcases ho'.of_looksUp hlooks with ⟨rfl, -, -⟩ | ⟨s, rfl, -⟩ | ⟨s, -, hl', -⟩
    · rfl
    · rfl
    · rw [hl'] at hl; cases hl

/-- A session of five seconds, renewed at 3, is found at 8. -/
theorem session_lifetime_renewed : ∃ L h ms l ms' before after out, ManagerRun L (plainConfig 5) h ms ∧
    managerStep L (plainConfig 5) ms l ms' ∧ l.LooksUp zeroId before out after ∧ before = [8] ∧
    expiry (plainConfig 5) zeroId h = 8 ∧ out ≠ none := by
  let stored : Session := { deviceSession (drawnChallenge 1) with expiresAt := 8, hasExpires := true }
  have hfirst : (playCalls (deviceExtern [drawnChallenge 0]) (plainConfig 5) [(0, some 0, .initiate "u" none),
      (3, some 1, .register (some zeroId) (some (registrationToken (drawnChallenge 0))))] MemoryStore.empty).map
      (fun r => (r.2, lives (plainConfig 5) zeroId r.1, expiry (plainConfig 5) zeroId r.1,
        r.1.map fun t => clockReadings t.label.events)) = some (⟨[stored], 8⟩, true, 8, [[0, 0], [3, 3]]) := by
    decide +kernel
  have hsecond : (playCalls (deviceExtern [drawnChallenge 0]) (plainConfig 5) [(8, none, .getSession zeroId)]
      ⟨[stored], 8⟩).map (fun r => r.1.map fun t => (t.label.call, notes t.label.events)) =
        some [(.getSession zeroId, [.reading 8, .lookup (some zeroId) (some stored)])] := by
    decide +kernel
  obtain ⟨h, ms, hrun, halloc, hfacts⟩ := exists_run hfirst
  simp only [Prod.mk.injEq] at hfacts
  obtain ⟨rfl, hlives, hexpiry, hreadings⟩ := hfacts
  obtain ⟨l, ms', hstep, hobeys, hl⟩ := exists_step hsecond
  simp only [Prod.mk.injEq] at hl
  obtain ⟨hcall, hnotes⟩ := hl
  have hlooks : l.LooksUp zeroId [8] (some stored) [] := ⟨by rw [hcall]; rfl, hnotes⟩
  have halloc' : Allocates (h ++ [⟨⟨[stored], 8⟩, l, ms'⟩]) := by
    intro t ht
    rcases List.mem_append.mp ht with ht | ht
    · exact halloc t ht
    · rw [List.mem_singleton.mp ht]
      exact hobeys
  have hclock : ∀ t ∈ h, ∀ r ∈ clockReadings t.label.events, r ≤ 8 := by
    intro t ht r hr
    have hmem := List.mem_map_of_mem (f := fun t => clockReadings t.label.events) ht
    rw [hreadings] at hmem
    rcases List.mem_pair.mp hmem with heq | heq <;> rw [heq] at hr <;> simp at hr <;> omega
  have hfound := (session_lifetime hrun hstep halloc' hlooks (fun r hr => List.mem_singleton.mp hr) hclock).1
  exact ⟨_, h, _, l, ms', _, _, _, hrun, hstep, hlooks, rfl, hexpiry,
    hfound.mpr ⟨hlives, fun _ => .inr (Int.le_of_eq hexpiry.symm)⟩⟩

/-- Set at clock value -5, an expiry of five seconds is 0, and the session is still found at 100. -/
theorem session_outlives_expiry : ∃ L h ms l ms' s, ManagerRun L (plainConfig 5) h ms ∧ Allocates h ∧
    managerStep L (plainConfig 5) ms l ms' ∧ Obeys (onEnv allocOk) l.events ∧
    (h.flatMap fun t => clockReadings t.label.events) = [-5, -5, 100, 100] ∧
    expiry (plainConfig 5) zeroId h = 0 ∧ l.LooksUp zeroId [] (some s) [] := by
  let stored : Session := freshSession zeroId "u" (drawnChallenge 0) (-5)
  let other : Session := (freshSession ((uuidv7Text 100000 (List.replicate 10 1)).getD []) "v" (drawnChallenge 1)
    100).withTtl 5 100
  have hfirst : (playCalls (deviceExtern []) (plainConfig 5) [(-5, some 0, .initiate "u" none),
      (100, some 1, .initiate "v" none)] MemoryStore.empty).map
      (fun r => (r.2, expiry (plainConfig 5) zeroId r.1, r.1.flatMap fun t => clockReadings t.label.events)) =
        some (⟨[stored, other], 8⟩, 0, [-5, -5, 100, 100]) := by
    decide +kernel
  have hsecond :
    (playCalls (deviceExtern []) (plainConfig 5) [(100, none, .getSession zeroId)] ⟨[stored, other], 8⟩).map
      (fun r => r.1.map fun t => (t.label.call, notes t.label.events)) =
        some [(.getSession zeroId, [.lookup (some zeroId) (some stored)])] := by
    decide +kernel
  obtain ⟨h, ms, hrun, halloc, hfacts⟩ := exists_run hfirst
  simp only [Prod.mk.injEq] at hfacts
  obtain ⟨rfl, hexpiry, hreadings⟩ := hfacts
  obtain ⟨l, ms', hstep, hobeys, hl⟩ := exists_step hsecond
  simp only [Prod.mk.injEq] at hl
  obtain ⟨hcall, hnotes⟩ := hl
  exact ⟨_, h, _, l, ms', stored, hrun, halloc, hstep, hobeys, hreadings, hexpiry, by rw [hcall]; rfl, hnotes⟩

end OpenDbsc
