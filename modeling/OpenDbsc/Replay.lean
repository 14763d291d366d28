/-
Replay of a proof.

Each granted call on a session replaces its challenge, so the challenges its
accepted proofs answered are among the ones it was given, in order
(`Rotating`), whichever allocations fail. While these differ no token is
accepted twice (`no_replay`). They differ as long as the entropy does, save for
the fixed challenge the source falls back to without entropy: a session given
that one twice accepts the same token twice. So does one whose new challenge
finds no memory for its copy, and which keeps the old one
(`replay_without_memory`).
-/
import Mathlib.Data.List.Infix
import OpenDbsc.Effects.Served
import OpenDbsc.MemoryIds
import OpenDbsc.Records.Rotation
import OpenDbsc.RejectedProof
import OpenDbsc.WholeRecords

namespace OpenDbsc

open Effects Records Prog

/-! ## Challenges do not collide -/

theorem hexDigit_injective : ∀ a b : Fin 16, hexDigit a = hexDigit b → a = b := by decide

theorem percent02x_injective {a b : UInt8} (h : percent02x a = percent02x b) : a = b := by
  have ha := a.toNat_lt
  have hb := b.toNat_lt
  simp only [percent02x, List.cons.injEq, and_true] at h
  have hhigh := hexDigit_injective ⟨a.toNat / 16, by omega⟩ ⟨b.toNat / 16, by omega⟩ h.1
  have hlow := hexDigit_injective ⟨a.toNat % 16, by omega⟩ ⟨b.toNat % 16, by omega⟩ h.2
  rw [Fin.mk.injEq] at hhigh hlow
  exact UInt8.toNat_inj.mp (by omega)

theorem flatMap_percent02x_injective {xs ys : List UInt8} (h : xs.flatMap percent02x = ys.flatMap percent02x) :
    xs = ys := by
  induction xs generalizing ys with
  | nil =>
    cases ys with
    | nil => rfl
    | cons => simp [percent02x] at h
  | cons x xs ih =>
    cases ys with
    | nil => simp [percent02x] at h
    | cons y ys =>
      rw [List.flatMap_cons, List.flatMap_cons] at h
      obtain ⟨hhead, htail⟩ := List.append_inj h rfl
      rw [percent02x_injective hhead, ih htail]

theorem length_flatMap_percent02x (xs : List UInt8) : (xs.flatMap percent02x).length = 2 * xs.length := by
  induction xs with
  | nil => rfl
  | cons x xs ih =>
    rw [List.flatMap_cons, List.length_append, ih, List.length_cons]
    show 2 + 2 * xs.length = 2 * (xs.length + 1)
    omega

theorem challengeOf_injective {a b : Option { b : List UInt8 // b.length = 32 }} (h : challengeOf a = challengeOf b) :
    a = b := by
  have hlen : ∀ c : { b : List UInt8 // b.length = 32 }, challengeOf (some c) ≠ challengeOf none := by
    intro c hc
    have hl : (c.val.flatMap percent02x).length = 18 := congrArg List.length hc
    rw [length_flatMap_percent02x, c.property] at hl
    omega
  cases a with
  | none =>
    cases b with
    | none => rfl
    | some b => exact absurd h.symm (hlen b)
  | some a =>
    cases b with
    | none => exact absurd h (hlen a)
    | some b => exact congrArg some (Subtype.ext (flatMap_percent02x_injective h))

/-! ## What a call does to the store -/

/-- A challenge is drawn and given memory, and then its copy finds none. -/
def failedCopy : List (Event (Sys.sum StoreSig)) → Bool
  | ⟨.inl (.getentropy 32), _⟩ :: ⟨.inl (.malloc _), true⟩ :: ⟨.inl (.malloc _), false⟩ :: _ => true
  | _ => false

/-- The call could not copy its new challenge, for want of memory. -/
def CopyFails (l : Handled) : Prop := l.events.tails.any failedCopy = true

/-- What a call does to the sessions and their challenges. -/
inductive Turn (L : Extern) (ms : MemoryStore) (l : Handled) (ms' : MemoryStore) : Prop
  | quiet (hstored : ∀ s, ¬ l.Stored s) (hrenews : ∀ id, ¬ l.Renews id)
  | login {s bytes} (hstored : ∀ s', l.Stored s' ↔ s' = s) (hrenews : ∀ id, ¬ l.Renews id) (hin : s ∈ ms'.sessions)
      (hdraws : Draws l.events bytes) (hchallenge : s.challenge ≠ none → s.challenge = some (challengeOf bytes))
  | renewal {id s s' bytes} (hstored : ∀ s'', l.Stored s'' ↔ s'' = s') (hrenews : l.Renews id) (hin : s' ∈ ms'.sessions)
      (hs : s ∈ ms.sessions) (hid : s.id = some id) (hid' : s'.id = some id) (hanswers : l.call.answers L = s.challenge)
      (hsome : s.challenge ≠ none) (hdraws : Draws l.events bytes)
      (hchallenge : s'.challenge = some (challengeOf bytes) ∨ CopyFails l)

section

variable {L : Extern} {cfg : ManagerConfig} {ms ms' : MemoryStore} {l : Handled}

/-- A verified proof has the challenge that the call's token answers. -/
theorem ManagerCall.Verifies.answers {call : ManagerCall} {s : Session} {trVerify : List (Event Sys)} {proof : ProofJWT}
    (h : call.Verifies L s trVerify proof) : call.answers L = proof.challenge := by
  cases call with
  | register cookie header =>
    obtain ⟨token, htoken, hverified⟩ := h
    rw [ManagerCall.answers, ManagerCall.token, htoken]
    exact (jwtDecodeAndVerify_checks L token).challenge hverified
  | refresh sessionId header =>
    obtain ⟨token, key, htoken, -, hverified⟩ := h
    rw [ManagerCall.answers, ManagerCall.token, htoken]
    exact (jwtVerifyWithJwk_checks L token key).challenge hverified
  | _ => exact h.elim

theorem Rewrites.kind {call : ManagerCall} {s s' : Session} {trVerify steps : List (Event Sys)} {proof : ProofJWT}
    (h : Rewrites L cfg call s trVerify proof steps s') : call.kind = .register ∨ call.kind = .refresh := by
  cases h with
  | register => exact .inl rfl
  | refresh => exact .inr rfl

/-- The store that has taken a write has the session, also when the call goes on. -/
theorem mem_of_written {o : StoreOp} {s : Session} {code : o.Ans} {rest : List (Event Sys)}
    {tr : List (Event (Sys.sum StoreSig))} (hdiffer : IdsDiffer ms.sessions)
    (hserved : ServedBy memory.comp ms (answered o code :: rest.map Event.inl) tr ms')
    (htakes : StoreTakes ⟨o, code⟩ s) : s ∈ ms'.sessions := by
  obtain ⟨tr₁, ms₁, rest₁, -, hwrite, hserved₁⟩ := hserved.call_inv
  rw [← List.append_nil (rest.map Event.inl)] at hserved₁
  obtain ⟨_, -, hend⟩ := hserved₁.env_inv
  cases hend
  exact (memory_leaves hdiffer _ _ _ hwrite).taken s htakes

/-- A login whose session the store has taken. -/
theorem Drafted.turn {userId : CStr} {steps rest : List (Event Sys)} {s : Session} (hdiffer : IdsDiffer ms.sessions)
    (hdrafted : Drafted L cfg userId steps s)
    (hserved : ServedBy memory.comp ms (steps.map Event.inl ++ answered (.create s) 0 :: rest.map Event.inl)
      l.events ms')
    (hstored : ∀ s', l.Stored s' ↔ s' = s) (hrenews : ∀ id, ¬ l.Renews id) : Turn L ms l ms' := by
  obtain ⟨bytes, hdraws, hchallenge⟩ := hdrafted.draws
  have hdrawn : Draws l.events bytes :=
    hserved.mem.1 (List.mem_append_left _ (List.mem_map_of_mem (f := Event.inl) hdraws))
  obtain ⟨rest₁, -, hserved₁⟩ := hserved.env_inv
  exact .login hstored hrenews (mem_of_written hdiffer hserved₁ (.inl rfl)) hdrawn hchallenge

/-- A request with a proof whose session the store has taken back. -/
theorem Rewrites.turn {id : CStr} {trVerify steps rest : List (Event Sys)} {s s' : Session} {proof : ProofJWT}
    (hdiffer : IdsDiffer ms.sessions) (hrewrites : Rewrites L cfg l.call s trVerify proof steps s')
    (hserved : ServedBy memory.comp ms (answered (.get (some id)) (some s) ::
      ((trVerify ++ steps).map Event.inl ++ answered (.update s') 0 :: rest.map Event.inl)) l.events ms')
    (hstored : ∀ s'', l.Stored s'' ↔ s'' = s') (hrenews : l.Renews id) : Turn L ms l ms' := by
  obtain ⟨⟨challenge, hproof, hs⟩, before, s₁, trRenewal, rfl, hrenewal, hid₁⟩ := hrewrites.renewal
  obtain ⟨hid₂, bytes, n, trRest, rfl, hchallenge⟩ := hrenewal.draws
  obtain ⟨tr₁, ms₁, rest₁, htr, hget, hserved₁⟩ := hserved.call_inv
  obtain ⟨rest₂, rfl, hserved₂⟩ := hserved₁.env_inv
  have hleft := memory_leaves hdiffer _ _ _ hget
  obtain ⟨hmem, hsid⟩ := hleft.found _ _ rfl
  have hanswers := hrewrites.verifies.answers.trans (hproof.trans hs.symm)
  -- The draw, the challenge's own memory and the copy's stand next to each other.
  have hevents : l.events = (tr₁.map Event.inl ++ answered (.get (some id)) (some s) ::
      (trVerify ++ before).map Event.inl) ++ ⟨.inl (.getentropy 32), bytes⟩ :: ⟨.inl (.malloc n), true⟩ ::
        (trRest.map Event.inl ++ rest₂) := by
    rw [htr]
    simp only [List.map_append, List.map_cons, List.append_assoc, List.cons_append]
    rfl
  have hdrawn : Draws l.events bytes := by
    rw [Draws, hevents]
    exact List.mem_append_right _ List.mem_cons_self
  refine .renewal hstored hrenews (mem_of_written hleft.differ hserved₂ (.inr rfl)) hmem hsid
    (hid₂.trans (hid₁.trans hsid)) hanswers (hs ▸ Option.some_ne_none _) hdrawn (hchallenge.imp_right fun hfails => ?_)
  obtain ⟨k, trRest', rfl⟩ := hfails
  rw [CopyFails, hevents]
  exact List.any_eq_true.mpr ⟨_, (List.mem_tails _ _).mpr (List.suffix_append _ _), rfl⟩

/-- What a call of the manager does, whichever allocations fail. -/
theorem managerStep_turn (hdiffer : IdsDiffer ms.sessions) (h : managerStep L cfg ms l ms') : Turn L ms l ms' := by
  obtain ⟨own, htrace, hserved⟩ := Exec.served h
  have hstored : ∀ s, l.Stored s ↔ (⟨l.call, own, l.reply⟩ : Handled).Stored s := fun s =>
    or_congr ⟨hserved.mem.2 _ _ rfl, hserved.mem.1⟩ ⟨hserved.mem.2 _ _ rfl, hserved.mem.1⟩
  cases Handled.ends (l := ⟨l.call, own, l.reply⟩) htrace with
  | unwritten hnone hrenews => exact .quiet (fun s hs => hnone.not_stored s ((hstored s).mp hs)) hrenews
  | @login userId steps s code rest hkind hdrafted hevents =>
    have hwrites := writesIf_login (L := L) hevents
    have hrenews : ∀ id, ¬ l.Renews id := Handled.not_renews ⟨by rw [hkind]; nofun, by rw [hkind]; nofun⟩
    by_cases hcode : code = 0
    · subst hcode
      rw [show own = _ from hevents] at hserved
      exact hdrafted.turn hdiffer hserved (fun s' => by rw [hstored, hwrites.stored, and_iff_left rfl]) hrenews
    · exact .quiet (fun s' hs' => hcode ((hwrites.stored s').mp ((hstored s').mp hs')).2) hrenews
  | @proof id s trVerify proof steps s' code rest hid hrewrites hr hevents =>
    have hwrites := writesIf_proof hrewrites.verifies hevents
    rcases hr with ⟨rfl, hok⟩ | ⟨hcode, hfailed⟩
    · rw [show own = _ from hevents] at hserved
      exact hrewrites.turn hdiffer hserved (fun s'' => by rw [hstored, hwrites.stored, and_iff_left rfl])
        ⟨hok, hrewrites.kind, hid⟩
    · refine .quiet (fun s'' hs'' => hcode ((hwrites.stored s'').mp ((hstored s'').mp hs'')).2) fun id' hrenews' => ?_
      have hrc : l.reply.rc = -1 := congrArg Prod.fst hfailed
      exact absurd (hrenews'.1.1.symm.trans hrc) (by decide)

/-- What a call leaves in the store. -/
theorem managerStep_leaves (hdiffer : IdsDiffer ms.sessions) (h : managerStep L cfg ms l ms') :
    IdsDiffer ms'.sessions ∧ ∀ s ∈ ms'.sessions, s ∈ ms.sessions ∨ s.id = none ∨ l.Stored s := by
  obtain ⟨own, -, hserved⟩ := Exec.served h
  refine hserved.invariant
    (P := fun st => IdsDiffer st.sessions ∧ ∀ s ∈ st.sessions, s ∈ ms.sessions ∨ s.id = none ∨ l.Stored s)
    ⟨hdiffer, fun _ hs => .inl hs⟩ ?_
  intro o st tr₁ x st₁ hmem hst hcall
  have hleft := memory_leaves hst.1 _ _ _ hcall
  refine ⟨hleft.differ, fun s hs => ?_⟩
  rcases hleft.rows s hs with hs | hblank | htakes
  · exact hst.2 s hs
  · exact .inr (.inl hblank)
  · have hevent := hserved.mem.1 hmem
    rcases htakes with heq | heq <;> cases heq
    · exact .inr (.inr (.inl hevent))
    · exact .inr (.inr (.inr hevent))

end

/-! ## Challenges in turn -/

/-- The store has taken a session under `id`. -/
def Handled.StoresAt (l : Handled) (id : CStr) : Prop := ∃ s, l.Stored s ∧ s.id = some id

instance (l : Handled) (id : CStr) : Decidable (l.StoresAt id) :=
  decidable_of_iff (∃ s ∈ l.events.filterMap storedOf, s.id = some id)
    (exists_congr fun _ => and_congr_left' stored_iff.symm)

/-- The challenge an accepted proof on `id` answered. -/
def usedBy (L : Extern) (id : CStr) (t : Transition MemoryStore Handled) : Option CStr :=
  if t.label.Renews id then t.label.call.answers L else none

/-- A session stored under `id` has this challenge, if any. -/
def HoldsChallenge (id : CStr) (ms : MemoryStore) (challenge : Option CStr) : Prop :=
  ∀ s ∈ ms.sessions, s.id = some id → s.challenge ≠ none → s.challenge = challenge

/-- The challenges the session was given, each by a call that drew it, and
those its accepted proofs answered. -/
def Rotating (L : Extern) (id : CStr) (h : List (Transition MemoryStore Handled)) (ms : MemoryStore) : Prop :=
  ∃ (issued : List (Transition MemoryStore Handled × Option { b : List UInt8 // b.length = 32 }))
    (current : Option CStr),
    issued.map Prod.fst = h.filter (fun t => t.label.StoresAt id) ∧
    (∀ p ∈ issued, Draws p.1.label.events p.2) ∧
    Rotates (issued.map fun p => challengeOf p.2) (h.filterMap (usedBy L id)) current ∧ HoldsChallenge id ms current

section

variable {L : Extern} {id : CStr} {h : List (Transition MemoryStore Handled)} {ms ms' : MemoryStore} {l : Handled}

theorem Rotating.nil (L : Extern) (id : CStr) : Rotating L id [] MemoryStore.empty :=
  ⟨[], none, rfl, fun _ hp => absurd hp List.not_mem_nil, Rotates.nil, fun _ hs => absurd hs List.not_mem_nil⟩

/-- A call that gives the session no challenge. -/
theorem Rotating.untouched (hrot : Rotating L id h ms) (hstores : ¬ l.StoresAt id) (hrenews : ¬ l.Renews id)
    (hleft : ∀ s ∈ ms'.sessions, s ∈ ms.sessions ∨ s.id = none ∨ l.Stored s) :
    Rotating L id (h ++ [⟨ms, l, ms'⟩]) ms' := by
  obtain ⟨issued, current, hfilter, hdraws, hrotates, hholds⟩ := hrot
  have hused : usedBy L id ⟨ms, l, ms'⟩ = none := if_neg hrenews
  refine ⟨issued, current, ?_, hdraws, ?_, fun s hs hid => ?_⟩
  · rw [hfilter, List.filter_append, List.filter_cons_of_neg (by simpa using hstores), List.filter_nil, List.append_nil]
  · rw [List.filterMap_append, List.filterMap_cons_none hused, List.filterMap_nil, List.append_nil]
    exact hrotates
  · rcases hleft s hs with hold | hblank | hstored
    · exact hholds s hold hid
    · exact absurd (hid.symm.trans hblank) (Option.some_ne_none _)
    · exact absurd ⟨s, hstored, hid⟩ hstores

/-- A call that gives it one. -/
theorem Rotating.issues (hrot : Rotating L id h ms) (hstores : l.StoresAt id) {bytes} (hdraws : Draws l.events bytes)
    (hnew : HoldsChallenge id ms' (some (challengeOf bytes)))
    (hused : usedBy L id ⟨ms, l, ms'⟩ = none ∨
      ∃ s ∈ ms.sessions, s.id = some id ∧ s.challenge ≠ none ∧ usedBy L id ⟨ms, l, ms'⟩ = s.challenge) :
    Rotating L id (h ++ [⟨ms, l, ms'⟩]) ms' := by
  obtain ⟨issued, current, hfilter, hall, hrotates, hholds⟩ := hrot
  refine ⟨issued ++ [(⟨ms, l, ms'⟩, bytes)], some (challengeOf bytes), ?_, ?_, ?_, hnew⟩
  · rw [List.map_append, hfilter, List.filter_append, List.filter_cons_of_pos (by simpa using hstores)]
    rfl
  · intro p hp
    rcases List.mem_append.mp hp with hp | hp
    · exact hall p hp
    · rw [List.mem_singleton.mp hp]
      exact hdraws
  · rw [List.map_append, List.filterMap_append]
    cases hu : usedBy L id ⟨ms, l, ms'⟩ with
    | none =>
      rw [List.filterMap_cons_none hu, List.filterMap_nil, List.append_nil]
      exact hrotates.issue _
    | some challenge =>
      have hwas : current = some challenge := by
        rcases hused with hno | ⟨s, hs, hid, hsome, heq⟩
        · rw [hno] at hu
          cases hu
        · rw [← hholds s hs hid hsome, ← heq, hu]
      rw [hwas] at hrotates
      rw [List.filterMap_cons_some hu, List.filterMap_nil]
      exact hrotates.use _

/-- One call keeps the challenges in turn. -/
theorem Rotating.step (hrot : Rotating L id h ms) (hturn : Turn L ms l ms') (hdiffer : IdsDiffer ms'.sessions)
    (hleft : ∀ s ∈ ms'.sessions, s ∈ ms.sessions ∨ s.id = none ∨ l.Stored s)
    (hcopies : ∀ id, l.Renews id → ¬ CopyFails l) : Rotating L id (h ++ [⟨ms, l, ms'⟩]) ms' := by
  have honly : ∀ {s : Session}, s ∈ ms'.sessions → s.id = some id → ∀ s' ∈ ms'.sessions, s'.id = some id → s' = s :=
    fun hs hid s' hs' hid' => hdiffer.eq hs' hs (hid' ▸ Option.some_ne_none _) (hid'.trans hid.symm)
  cases hturn with
  | quiet hstored hrenews => exact hrot.untouched (fun ⟨s, hs, _⟩ => hstored s hs) (hrenews id) hleft
  | @login s bytes hstored hrenews hin hdraws hchallenge =>
    by_cases hid : s.id = some id
    · refine hrot.issues ⟨s, (hstored s).mpr rfl, hid⟩ hdraws (fun s' hs' hid' => ?_) (.inl (if_neg (hrenews id)))
      rw [honly hin hid s' hs' hid']
      exact hchallenge
    · refine hrot.untouched (fun ⟨s', hs', hid'⟩ => hid ?_) (hrenews id) hleft
      rwa [← (hstored s').mp hs']
  | @renewal id' s s' bytes hstored hrenews hin hs hsid hid' hanswers hsome hdraws hchallenge =>
    by_cases hid : id' = id
    · subst hid
      refine hrot.issues ⟨s', (hstored s').mpr rfl, hid'⟩ hdraws (fun s'' hs'' hid'' _ => ?_)
        (.inr ⟨s, hs, hsid, hsome, (if_pos hrenews).trans hanswers⟩)
      rw [honly hin hid' s'' hs'' hid'']
      exact hchallenge.resolve_right (hcopies _ hrenews)
    · refine hrot.untouched (fun ⟨s'', hs'', hid''⟩ => hid ?_) (fun h => hid ?_) hleft
      · rw [(hstored s'').mp hs'', hid'] at hid''
        exact Option.some.inj hid''
      · exact Option.some.inj (hrenews.2.2.symm.trans h.2.2)

/-- A granted call that renews a session answered a challenge. -/
theorem Turn.answers (h : Turn L ms l ms') (hrenews : l.Renews id) :
    ∃ challenge, l.call.answers L = some challenge := by
  cases h with
  | quiet _ hnone => exact absurd hrenews (hnone id)
  | login _ hnone => exact absurd hrenews (hnone id)
  | renewal _ _ _ _ _ _ hanswers hsome => exact Option.ne_none_iff_exists'.mp (hanswers ▸ hsome)

end

/-! ## No token twice -/

def failedDraw : Event (Sys.sum StoreSig) → Bool
  | ⟨.inl (.getentropy 32), none⟩ => true
  | _ => false

/-- The call could not draw a challenge, for want of entropy. -/
def FailsDraw (l : Handled) : Prop := l.events.any failedDraw = true

/-- No two register or refresh calls on one session, both granted, brought the same token. -/
def NoReplay (h : List (Transition MemoryStore Handled)) : Prop :=
  h.Pairwise fun t t' => ∀ id, t.label.Renews id → t'.label.Renews id → t.label.call.token ≠ t'.label.call.token

/-- No session is given the fixed challenge twice. -/
def FallbackOnce (h : List (Transition MemoryStore Handled)) : Prop :=
  h.Pairwise fun t t' => ∀ id, t.label.StoresAt id → t'.label.StoresAt id → ¬ (FailsDraw t.label ∧ FailsDraw t'.label)

/-- No granted call is without memory for the copy of the challenge it has drawn. -/
def CopiesChallenge (h : List (Transition MemoryStore Handled)) : Prop :=
  ∀ t ∈ h, ∀ id, t.label.Renews id → ¬ CopyFails t.label

/-- The outputs of the successful `getentropy` calls never repeat. -/
def FreshEntropy (h : List (Transition MemoryStore Handled)) : Prop :=
  (h.flatMap fun t => entropyOutputs t.label.events).Nodup

theorem Draws.failed {l : Handled} (h : Draws l.events none) : FailsDraw l :=
  List.any_eq_true.mpr ⟨_, h, rfl⟩

/-- Two calls that draw different bytes, one of them some, issue different challenges. -/
theorem issued_ne {t t' : Transition MemoryStore Handled} {b b' : Option { b : List UInt8 // b.length = 32 }}
    (hb : Draws t.label.events b) (hb' : Draws t'.label.events b')
    (hdisjoint : List.Disjoint (entropyOutputs t.label.events) (entropyOutputs t'.label.events))
    (honce : ¬ (FailsDraw t.label ∧ FailsDraw t'.label)) : challengeOf b ≠ challengeOf b' := by
  intro heq
  have hsame := challengeOf_injective heq
  subst hsame
  cases b with
  | none => exact honce ⟨hb.failed, hb'.failed⟩
  | some b => exact hdisjoint hb.entropy hb'.entropy

/-- In a run the challenges are in turn, and every granted proof answered one. -/
theorem ManagerRun.rotating {L : Extern} {cfg : ManagerConfig} {h : List (Transition MemoryStore Handled)}
    {ms : MemoryStore} (hrun : ManagerRun L cfg h ms) (hcopies : CopiesChallenge h) :
    (∀ t ∈ h, ∀ id, t.label.Renews id → ∃ challenge, t.label.call.answers L = some challenge) ∧
      ∀ id, Rotating L id h ms := by
  refine ((hrun.restrict hcopies).invariant (P := fun h ms => IdsDiffer ms.sessions ∧
    (∀ t ∈ h, ∀ id, t.label.Renews id → ∃ challenge, t.label.call.answers L = some challenge) ∧
      ∀ id, Rotating L id h ms) ?_ ?_).2
  · exact ⟨List.Pairwise.nil, fun _ ht => absurd ht List.not_mem_nil, Rotating.nil L⟩
  · rintro h ms l ms' - ⟨hdiffer, hanswers, hrot⟩ ⟨hstep, hcopy⟩
    have hturn := managerStep_turn hdiffer hstep
    obtain ⟨hdiffer', hleft⟩ := managerStep_leaves hdiffer hstep
    refine ⟨hdiffer', fun t ht id hrenews => ?_, fun id => (hrot id).step hturn hdiffer' hleft hcopy⟩
    rcases List.mem_append.mp ht with ht | ht
    · exact hanswers t ht id hrenews
    · obtain rfl := List.mem_singleton.mp ht
      exact hturn.answers hrenews

/-- **No replay.** In a run whose entropy never repeats, in which no session is
given the fixed challenge twice and every challenge granted is copied, no token
is accepted twice for a session. -/
theorem no_replay {L : Extern} {cfg : ManagerConfig} {h : List (Transition MemoryStore Handled)} {ms : MemoryStore}
    (hrun : ManagerRun L cfg h ms) (hfresh : FreshEntropy h) (honce : FallbackOnce h) (hcopies : CopiesChallenge h) :
    NoReplay h := by
  obtain ⟨hanswers, hrot⟩ := hrun.rotating hcopies
  have hused : ∀ id, (h.filterMap (usedBy L id)).Nodup := by
    intro id
    obtain ⟨issued, current, hfilter, hdraws, hrotates, -⟩ := hrot id
    refine hrotates.used_nodup ?_
    have hpairs : (h.filter fun t => t.label.StoresAt id).Pairwise fun t t' =>
        List.Disjoint (entropyOutputs t.label.events) (entropyOutputs t'.label.events) ∧
          ¬ (FailsDraw t.label ∧ FailsDraw t'.label) := by
      refine List.Pairwise.and ((List.nodup_flatMap.mp hfresh).2.filter _) ?_
      refine (honce.filter _).imp_of_mem fun ht ht' hno => ?_
      exact hno id (of_decide_eq_true (List.mem_filter.mp ht).2) (of_decide_eq_true (List.mem_filter.mp ht').2)
    rw [← hfilter, List.pairwise_map] at hpairs
    rw [List.Nodup, List.pairwise_map]
    exact hpairs.imp_of_mem fun hp hp' hpair => issued_ne (hdraws _ hp) (hdraws _ hp') hpair.1 hpair.2
  rw [NoReplay, List.pairwise_iff_getElem]
  intro i j hi hj hij id hrenews hrenews' htoken
  obtain ⟨challenge, hanswer⟩ := hanswers _ (List.getElem_mem hi) id hrenews
  have hanswer' : h[j].label.call.answers L = some challenge := by
    rw [← hanswer, ManagerCall.answers, ManagerCall.answers, htoken]
  have hnodup := hused id
  rw [List.Nodup, List.pairwise_filterMap, List.pairwise_iff_getElem] at hnodup
  exact hnodup i j hi hj hij challenge ((if_pos hrenews).trans hanswer) challenge
    ((if_pos hrenews').trans hanswer') rfl

/-- A runtime in which the allocation at position `n`, if it comes to one, fails. -/
def starvedAt (n : Nat) (byte : Option UInt8) (k : Nat) : (o : Sys.Op) → Option (Sys.Ans o)
  | .malloc _ => some (decide (k ≠ n))
  | o => runtimeAt 0 byte k o

/-- Calls, one in which the allocation at position `n` fails, and calls again. -/
def playStarved (L : Extern) (cfg : ManagerConfig) (before : List (Int × Option UInt8 × ManagerCall)) (n : Nat)
    (byte : Option UInt8) (call : ManagerCall) (after : List (Int × Option UInt8 × ManagerCall)) (ms : MemoryStore) :
    Option (List (Transition MemoryStore Handled) × MemoryStore) := do
  let (h₁, ms₁) ← playCalls L cfg before ms
  let (tr, reply, ms₂) ← play (starvedAt n byte) memory 0 (call.program L cfg) ms₁
  let (h₂, ms₃) ← playCalls L cfg after ms₂
  some (h₁ ++ ⟨ms₁, ⟨call, tr, reply⟩, ms₂⟩ :: h₂, ms₃)

theorem run_playStarved {L : Extern} {cfg : ManagerConfig} {before n byte call after} {ms ms' : MemoryStore}
    {h : List (Transition MemoryStore Handled)}
    (hplay : playStarved L cfg before n byte call after ms = some (h, ms')) :
    Run (managerStep L cfg) ms h ms' := by
  simp only [playStarved, Option.bind_eq_bind, Option.bind_eq_some_iff, Option.some.injEq, Prod.mk.injEq] at hplay
  obtain ⟨⟨h₁, ms₁⟩, hplay₁, ⟨tr, reply, ms₂⟩, hstarved, ⟨h₂, ms₃⟩, hplay₂, rfl, rfl⟩ := hplay
  have hnone : Allocates [] := fun _ ht => absurd ht List.not_mem_nil
  have hstep : managerStep L cfg ms₁ ⟨call, tr, reply⟩ ms₂ := exec_play hstarved
  exact (run_playCalls .init hnone hplay₁).1.append ((run_playCalls .init hnone hplay₂).1.cons hstep)

/-- Calls of which one at most has no entropy. -/
theorem fallbackOnce_of_draws {h : List (Transition MemoryStore Handled)} {draws : List Bool}
    (hdraws : (h.map fun t => t.label.events.any failedDraw) = draws)
    (honce : draws.Pairwise fun a b => ¬ (a = true ∧ b = true)) : FallbackOnce h := by
  rw [← hdraws, List.pairwise_map] at honce
  exact honce.imp fun hno _ _ _ => hno

theorem copiesChallenge_of_copies {h : List (Transition MemoryStore Handled)} {copies : List Bool}
    (hcopies : (h.map fun t => t.label.events.tails.any failedCopy) = copies) (hall : true ∉ copies) :
    CopiesChallenge h := by
  intro t ht id _ hfails
  refine hall ?_
  rw [← hcopies, ← show t.label.events.tails.any failedCopy = true from hfails]
  exact List.mem_map_of_mem ht

def failedMalloc : Event (Sys.sum StoreSig) → Bool
  | ⟨.inl (.malloc _), false⟩ => true
  | _ => false

/-- Registered without entropy, and refreshed for the fixed challenge though an allocation fails: the same token
does not refresh again, the next one does. -/
theorem no_replay_refresh : ∃ L cfg h ms, ManagerRun L cfg h ms ∧
    (h.map fun t => (decide (t.label.Renews zeroId), t.label.events.any failedDraw, t.label.events.any failedMalloc)) =
      [(false, false, false), (true, true, false), (true, false, true), (false, false, false), (true, false, false)] ∧
    NoReplay h := by
  have hplay : (playStarved (deviceExtern [drawnChallenge 0, "fallback-challenge", drawnChallenge 2]) (plainConfig 0)
      [(0, some 0, .initiate "u" none),
        (0, none, .register (some zeroId) (some (registrationToken (drawnChallenge 0))))]
      44 (some 2) (.refresh (some zeroId) (some (refreshToken "fallback-challenge")))
      [(0, some 3, .refresh (some zeroId) (some (refreshToken "fallback-challenge"))),
        (0, some 4, .refresh (some zeroId) (some (refreshToken (drawnChallenge 2))))] MemoryStore.empty).map
      (fun r => (r.1.map fun t =>
          (decide (t.label.Renews zeroId), t.label.events.any failedDraw, t.label.events.any failedMalloc),
        r.1.map fun t => t.label.events.tails.any failedCopy, r.1.flatMap fun t => entropyOutputs t.label.events)) =
        some ([(false, false, false), (true, true, false), (true, false, true), (false, false, false),
          (true, false, false)], [false, false, false, false, false],
          [List.replicate 10 0, List.replicate 32 0, List.replicate 32 2, List.replicate 32 4]) := by
    decide +kernel
  obtain ⟨⟨h, ms⟩, hh, hfacts⟩ := Option.map_eq_some_iff.mp hplay
  simp only [Prod.mk.injEq] at hfacts
  obtain ⟨hcalls, hcopies, hentropy⟩ := hfacts
  have hrun := run_playStarved hh
  have hdraws : (h.map fun t => t.label.events.any failedDraw) = [false, true, false, false, false] := by
    have hsecond := congrArg (List.map fun r => r.2.1) hcalls
    rwa [List.map_map] at hsecond
  have hfresh : FreshEntropy h := by
    rw [FreshEntropy, hentropy]
    decide
  exact ⟨_, _, h, ms, hrun, hcalls, no_replay hrun hfresh (fallbackOnce_of_draws hdraws (by decide))
    (copiesChallenge_of_copies hcopies (by decide))⟩

/-- The same token twice, in two granted calls. -/
theorem not_noReplay {h : List (Transition MemoryStore Handled)} {id : CStr} {calls : List (Bool × Option CStr)}
    (hcalls : (h.map fun t => (decide (t.label.Renews id), t.label.call.token)) = calls)
    (htwice : ¬ calls.Pairwise fun a b => a.1 = true → b.1 = true → a.2 ≠ b.2) : ¬ NoReplay h := by
  intro hno
  refine htwice ?_
  rw [← hcalls, List.pairwise_map]
  exact hno.imp fun hne ha hb => hne id (of_decide_eq_true ha) (of_decide_eq_true hb)

/-- Without entropy the session is given the fixed challenge again, and takes the same token again. -/
theorem replay_without_entropy : ∃ L cfg h ms, ManagerRun L cfg h ms ∧ Allocates h ∧ FreshEntropy h ∧ ¬ NoReplay h := by
  have hplay : (playCalls (deviceExtern [drawnChallenge 0, "fallback-challenge"]) (plainConfig 0)
      [(0, some 0, .initiate "u" none),
        (1, none, .register (some zeroId) (some (registrationToken (drawnChallenge 0)))),
        (2, none, .refresh (some zeroId) (some (refreshToken "fallback-challenge"))),
        (3, none, .refresh (some zeroId) (some (refreshToken "fallback-challenge")))] MemoryStore.empty).map
      (fun r => (r.1.map fun t => (decide (t.label.Renews zeroId), t.label.call.token),
        r.1.flatMap fun t => entropyOutputs t.label.events)) =
        some ([(false, none), (true, some (registrationToken (drawnChallenge 0))),
          (true, some (refreshToken "fallback-challenge")), (true, some (refreshToken "fallback-challenge"))],
          [List.replicate 10 0, List.replicate 32 0]) := by
    decide +kernel
  obtain ⟨h, ms, hrun, halloc, hfacts⟩ := exists_run hplay
  simp only [Prod.mk.injEq] at hfacts
  obtain ⟨hcalls, hentropy⟩ := hfacts
  exact ⟨_, _, h, ms, hrun, halloc, by rw [FreshEntropy, hentropy]; decide, not_noReplay hcalls (by simp)⟩

/-- The copy of a new challenge finds no memory: the session keeps the old one, and takes the same token again. -/
theorem replay_without_memory : ∃ L cfg h ms,
    ManagerRun L cfg h ms ∧ FreshEntropy h ∧ FallbackOnce h ∧ ¬ NoReplay h := by
  have hplay : (playStarved (deviceExtern [drawnChallenge 0, drawnChallenge 1]) (plainConfig 0)
      [(0, some 0, .initiate "u" none),
        (0, some 1, .register (some zeroId) (some (registrationToken (drawnChallenge 0))))]
      38 (some 2) (.refresh (some zeroId) (some (refreshToken (drawnChallenge 1))))
      [(0, some 3, .refresh (some zeroId) (some (refreshToken (drawnChallenge 1))))] MemoryStore.empty).map
      (fun r => (r.1.map fun t => (decide (t.label.Renews zeroId), t.label.call.token),
        r.1.map fun t => t.label.events.any failedDraw, r.1.flatMap fun t => entropyOutputs t.label.events)) =
        some ([(false, none), (true, some (registrationToken (drawnChallenge 0))),
          (true, some (refreshToken (drawnChallenge 1))), (true, some (refreshToken (drawnChallenge 1)))],
          [false, false, false, false], [List.replicate 10 0, List.replicate 32 0, List.replicate 32 1,
            List.replicate 32 2, List.replicate 32 3]) := by
    decide +kernel
  obtain ⟨⟨h, ms⟩, hh, hfacts⟩ := Option.map_eq_some_iff.mp hplay
  simp only [Prod.mk.injEq] at hfacts
  obtain ⟨hcalls, hdraws, hentropy⟩ := hfacts
  have hfresh : FreshEntropy h := by
    rw [FreshEntropy, hentropy]
    decide
  exact ⟨_, _, h, ms, run_playStarved hh, hfresh, fallbackOnce_of_draws hdraws (by decide),
    not_noReplay hcalls (by simp)⟩

end OpenDbsc
