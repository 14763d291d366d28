/-
Sessions do not interfere.

To the calls on one session id the memory store is a cell that holds at most
one record (`cell`): the array scans by position and moves its last slot into
a removed one, but no two of its sessions have the same id. So what a request
on an id comes to is a function of the record under that id
(`played_on_record`), and the sessions under other ids stay as they are.
-/
import OpenDbsc.Effects.Alike
import OpenDbsc.ManagerRun

namespace OpenDbsc

open Effects Records Prog

/-- The record under an id. -/
def MemoryStore.record (ms : MemoryStore) (id : CStr) : Option Session := ms.sessions.find? fun s => s.id == some id

/-- The calls on `a`. -/
def StoreOp.On (a : CStr) : StoreOp → Prop
  | .get id => id = some a
  | .update s => s.id = some a
  | .delete id => id = some a
  | _ => False

/-- The session in an answer is the one under `a`. -/
def StoreOp.Carries (a : CStr) : (o : StoreOp) → StoreOp.Ans o → Prop
  | .get _, out => ∀ s, out = some s → s.id = some a
  | _, _ => True

theorem carries_none {a : CStr} {id : Option CStr} : (StoreOp.get id).Carries a none := fun _ h => by cases h

/-- The call's session id. -/
def ManagerCall.On (a : CStr) : ManagerCall → Prop
  | .initiate .. => False
  | .register id _ => id = some a
  | .refresh id _ => id = some a
  | .close id => id = some a
  | .getSession id => id = a

/-! ## The store as a cell -/

/-- The memory store, to the calls on one id. -/
def cell : Impl Sys StoreSig (Option Session)
  | .get _, none => pure (none, none)
  | .get _, some stored => do
    if ← memoryStoreIsExpired stored then return (none, none)
    if !(← malloc sizeofSession) then return (none, some stored)
    let (rc, copy) ← sessionCopy stored
    if rc ≠ 0 then return (none, some stored)
    return (some copy, some stored)
  | .update _, none => pure (-1, none)
  | .update s, some _ => do
    let (rc, copy) ← sessionCopy s
    if rc ≠ 0 then pure (-1, none) else pure (0, some copy)
  | .delete _, _ => pure (0, none)
  | .create _, r => pure (-1, r)
  | .getByUserId _, r => pure (none, r)
  | .deleteByUserId _, r => pure (-1, r)

/-- `r` is all the array has under `a`, and it has all of `others`. -/
def MemoryStore.Shows (a : CStr) (others : List Session) (ms : MemoryStore) (r : Option Session) : Prop :=
  ∃ rest : List Session, ms.sessions.Perm (r.toList ++ rest) ∧ (∀ s, r = some s → s.id = some a) ∧
    (∀ s ∈ rest, s.id ≠ some a) ∧ others ⊆ rest

theorem filter_eq_find {a : CStr} {sessions : List Session} (hnd : (sessions.map Session.id).Nodup) :
    sessions.filter (fun s => s.id == some a) = (sessions.find? fun s => s.id == some a).toList := by
  rw [← List.head?_filter]
  have hsub : ((sessions.filter fun s => s.id == some a).map Session.id).Nodup :=
    hnd.sublist (List.filter_sublist.map _)
  have hid : ∀ s ∈ sessions.filter (fun s => s.id == some a), s.id = some a := fun s hs =>
    eq_of_beq (List.mem_filter.mp hs).2
  generalize sessions.filter (fun s => s.id == some a) = found at hsub hid
  match found with
  | [] => rfl
  | [s] => rfl
  | s :: s' :: found =>
    have heq : s.id = s'.id := (hid s (by simp)).trans (hid s' (by simp)).symm
    simp [heq] at hsub

/-- With distinct ids, the array has one record under each, or none. -/
theorem MemoryStore.shows_record {ms : MemoryStore} (hnd : (ms.sessions.map Session.id).Nodup) (a : CStr) :
    ms.Shows a (ms.sessions.filter fun s => !(s.id == some a)) (ms.record a) := by
  refine ⟨_, ?_, ?_, ?_, List.Subset.refl _⟩
  · rw [record, ← filter_eq_find hnd]
    exact (List.filter_append_perm _ _).symm
  · intro s hs
    have hid := List.find?_some hs
    exact eq_of_beq hid
  · intro s hs
    simpa using (List.mem_filter.mp hs).2

namespace MemoryStore.Shows

variable {a : CStr} {others : List Session} {ms : MemoryStore} {r : Option Session}

theorem mem_others (h : ms.Shows a others r) {s : Session} (hs : s ∈ others) : s ∈ ms.sessions := by
  obtain ⟨rest, hperm, -, -, hsub⟩ := h
  exact hperm.mem_iff.mpr (List.mem_append_right _ (hsub hs))

theorem eq_some (h : ms.Shows a others r) {s : Session} (hs : s ∈ ms.sessions) (hid : s.id = some a) :
    r = some s := by
  obtain ⟨rest, hperm, -, hrest, -⟩ := h
  rcases List.mem_append.mp (hperm.mem_iff.mp hs) with hr | hr
  · exact Option.mem_toList.mp hr
  · exact absurd hid (hrest s hr)

theorem mem (h : ms.Shows a others r) {s : Session} (hs : r = some s) : s ∈ ms.sessions ∧ s.id = some a := by
  obtain ⟨rest, hperm, hid, -, -⟩ := h
  refine ⟨hperm.mem_iff.mpr (List.mem_append_left _ ?_), hid s hs⟩
  exact Option.mem_toList.mpr hs

theorem record (h : ms.Shows a others r) : ms.record a = r := by
  unfold MemoryStore.record
  cases hfind : ms.sessions.find? fun s => s.id == some a with
  | some s =>
    have hid := List.find?_some hfind
    exact (h.eq_some (List.mem_of_find?_eq_some hfind) (eq_of_beq hid)).symm
  | none =>
    cases hr : r with
    | none => rfl
    | some s =>
      obtain ⟨hs, hid⟩ := h.mem hr
      exact absurd (beq_iff_eq.mpr hid) (List.find?_eq_none.mp hfind s hs)

theorem find_none (h : ms.Shows a others none) : memoryStoreFind ms (some a) = none := by
  unfold memoryStoreFind
  rw [List.findFinIdx?_eq_none_iff]
  intro s hs hid
  cases h.eq_some hs (eq_of_beq hid)

theorem find_some {s : Session} (h : ms.Shows a others (some s)) :
    ∃ idx : Fin ms.sessions.length, memoryStoreFind ms (some a) = some idx ∧ ms.sessions.get idx = s := by
  obtain ⟨hs, hid⟩ := h.mem rfl
  cases hf : memoryStoreFind ms (some a) with
  | none =>
    unfold memoryStoreFind at hf
    exact absurd (beq_iff_eq.mpr hid) (List.findFinIdx?_eq_none_iff.mp hf s hs)
  | some idx =>
    have hidx : (ms.sessions.get idx).id = some a := eq_of_beq (List.findFinIdx?_eq_some_iff.mp hf).1
    exact ⟨idx, rfl, (Option.some.inj (h.eq_some (List.getElem_mem idx.isLt) hidx)).symm⟩

/-- The slot of the record, taken out or written over. -/
theorem slot {s : Session} {idx : Fin ms.sessions.length} (h : ms.Shows a others (some s))
    (hidx : ms.sessions.get idx = s) :
    ∃ rest : List Session, (∀ s ∈ rest, s.id ≠ some a) ∧ others ⊆ rest ∧ (swapRemove ms.sessions idx).Perm rest ∧
      ∀ s', (ms.sessions.set idx s').Perm (s' :: rest) := by
  obtain ⟨rest, hperm, -, hrest, hsub⟩ := h
  refine ⟨rest, hrest, hsub, ?_, fun s' => ?_⟩
  · have hswap := swapRemove_perm idx.isLt
    rw [← hidx] at hperm
    exact (hswap.trans hperm).cons_inv
  · have herase := List.getElem_cons_eraseIdx_perm idx.isLt
    rw [← hidx] at hperm
    exact (List.set_perm_cons_eraseIdx idx.isLt s').trans ((herase.trans hperm).cons_inv.cons s')

theorem removeAt {s : Session} {idx : Fin ms.sessions.length} (h : ms.Shows a others (some s))
    (hidx : ms.sessions.get idx = s) : (memoryStoreRemoveAt ms idx).Shows a others none := by
  obtain ⟨rest, hrest, hsub, hperm, -⟩ := h.slot hidx
  exact ⟨rest, hperm, nofun, hrest, hsub⟩

theorem set {s s' : Session} {idx : Fin ms.sessions.length} (h : ms.Shows a others (some s))
    (hidx : ms.sessions.get idx = s) (hs' : s'.id = some a) :
    MemoryStore.Shows a others { ms with sessions := ms.sessions.set idx s' } (some s') := by
  obtain ⟨rest, hrest, hsub, -, hperm⟩ := h.slot hidx
  refine ⟨rest, hperm s', ?_, hrest, hsub⟩
  rintro _ ⟨⟩
  exact hs'

/-- A slot left blank shows no record. -/
theorem blank {s : Session} {idx : Fin ms.sessions.length} (h : ms.Shows a others (some s))
    (hidx : ms.sessions.get idx = s) :
    MemoryStore.Shows a others { ms with sessions := ms.sessions.set idx sessionInit } none := by
  obtain ⟨rest, hrest, hsub, -, hperm⟩ := h.slot hidx
  refine ⟨sessionInit :: rest, hperm sessionInit, nofun, ?_, fun s hs => List.mem_cons_of_mem _ (hsub hs)⟩
  intro s hs
  rcases List.mem_cons.mp hs with rfl | hs
  · exact nofun
  · exact hrest s hs

/-- **To the calls on `a` the memory store is a cell**, whatever allocations fail. -/
theorem alike (h : ms.Shows a others r) {o : StoreOp} (ho : o.On a) :
    Alike (fun c c' => c.1 = c'.1 ∧ o.Carries a c.1 ∧ c.2.Shows a others c'.2) (memory o ms) (cell o r) := by
  cases o with
  | get id =>
    obtain rfl : id = some a := ho
    simp only [memory, memoryStoreGet]
    cases r with
    | none =>
      simp only [h.find_none]
      exact alike_pure ⟨rfl, carries_none, h⟩
    | some s =>
      obtain ⟨idx, hf, hidx⟩ := h.find_some
      simp only [hf]
      rw [show ms.sessions[idx] = s from hidx]
      refine alike_bind fun expired => ?_
      split
      · exact alike_pure ⟨rfl, carries_none, h.removeAt hidx⟩
      refine alike_bind fun allocated => ?_
      split
      · exact alike_pure ⟨rfl, carries_none, h⟩
      refine (ensures_sessionCopy s).alike_bind fun r hcopy => ?_
      obtain ⟨rc, copy⟩ := r
      simp only
      split
      · exact alike_pure ⟨rfl, carries_none, h⟩
      · rename_i hrc
        obtain rfl : copy = s := hcopy (not_not.mp hrc)
        refine alike_pure ⟨rfl, ?_, h⟩
        rintro _ ⟨⟩
        exact (h.mem rfl).2
  | update s =>
    have hid : s.id = some a := ho
    simp only [memory, memoryStoreUpdate, hid, reduceCtorEq, if_false]
    cases r with
    | none =>
      simp only [h.find_none]
      exact alike_pure ⟨rfl, trivial, h⟩
    | some stored =>
      obtain ⟨idx, hf, hidx⟩ := h.find_some
      simp only [hf, memoryStoreReplace]
      refine (ensures_sessionCopy s).alike_bind fun r hcopy => ?_
      obtain ⟨rc, copy⟩ := r
      simp only
      split
      · exact alike_pure ⟨rfl, trivial, h.blank hidx⟩
      · rename_i hrc
        obtain rfl : copy = s := hcopy (not_not.mp hrc)
        exact alike_pure ⟨rfl, trivial, h.set hidx hid⟩
  | delete id =>
    obtain rfl : id = some a := ho
    simp only [memory, memoryStoreDelete]
    cases r with
    | none =>
      simp only [h.find_none]
      exact alike_pure ⟨rfl, trivial, h⟩
    | some s =>
      obtain ⟨idx, hf, hidx⟩ := h.find_some
      simp only [hf]
      exact alike_pure ⟨rfl, trivial, h.removeAt hidx⟩
  | create s => exact absurd ho not_false
  | getByUserId user => exact absurd ho not_false
  | deleteByUserId user => exact absurd ho not_false

end MemoryStore.Shows

/-! ## A request on `a` calls the store on `a` -/

section

variable {L : Extern} {cfg : ManagerConfig} {a : CStr}

theorem ensures_set_id {put : Option CStr → Session} {field value : Option CStr} {id : Option CStr}
    (hput : ∀ v, (put v).id = id) : Ensures (setField put field value) fun r => r.2.id = id := by
  intro tr r ht
  rcases ensures_setField tr r ht with rfl | rfl
  · exact hput value
  · exact hput field

theorem ensures_sessionSetPublicKey_id (s : Session) (publicKey : Option CStr) :
    Ensures (sessionSetPublicKey s publicKey) fun r => r.2.id = s.id := ensures_set_id fun _ => rfl

theorem ensures_sessionSetAlgorithm_id (s : Session) (algorithm : Option CStr) :
    Ensures (sessionSetAlgorithm s algorithm) fun r => r.2.id = s.id := ensures_set_id fun _ => rfl

theorem ensures_sessionSetChallenge_id (s : Session) (challenge : Option CStr) :
    Ensures (sessionSetChallenge s challenge) fun r => r.2.id = s.id := ensures_set_id fun _ => rfl

theorem ensures_applySessionTtl_id (s : Session) (ttlSeconds : Int) :
    Ensures (applySessionTtl s ttlSeconds) fun s' => s'.id = s.id := by
  unfold applySessionTtl
  split
  · exact Ensures.bind_any fun now => Ensures.pure rfl
  · exact Ensures.pure rfl

theorem nonEmpty_some {a id : CStr} (h : nonEmpty (some a) = some id) : id = a := by
  simp only [nonEmpty, Option.filter_eq_some_iff, Option.some.injEq] at h
  exact h.1.symm

theorem calls_storeGet :
    Calls (StoreOp.On a) (StoreOp.Carries a) (fun out => ∀ s, out = some s → s.id = some a) (storeGet a) :=
  calls_call (T := StoreSig) (C := StoreOp.On a) (A := StoreOp.Carries a) rfl

theorem calls_storeUpdate {s : Session} (hs : s.id = some a) :
    Calls (StoreOp.On a) (StoreOp.Carries a) (fun _ => True) (storeUpdate s) :=
  calls_call (T := StoreSig) (C := StoreOp.On a) (A := StoreOp.Carries a) hs

theorem calls_storeDelete : Calls (StoreOp.On a) (StoreOp.Carries a) (fun _ => True) (storeDelete a) :=
  calls_call (T := StoreSig) (C := StoreOp.On a) (A := StoreOp.Carries a) rfl

theorem calls_renewSession {type detail : CStr} {s : Session} (hs : s.id = some a) :
    Calls (StoreOp.On a) (StoreOp.Carries a) (fun _ => True) (renewSession L cfg type detail s) := by
  unfold renewSession
  refine (calls_lift managerGenerateChallenge).bind fun challenge _ => ?_
  cases challenge with
  | none => trivial
  | some challenge =>
    refine (ensures_sessionSetChallenge_id s _).calls.bind fun (_, s₁) h₁ => ?_
    refine (ensures_applySessionTtl_id s₁ _).calls.bind fun s₂ h₂ => ?_
    refine (calls_storeUpdate (h₂.trans (h₁.trans hs))).bind fun rc _ => ?_
    split
    · trivial
    · exact (calls_lift _).bind fun _ _ => calls_lift _

theorem calls_managerRegister (header : Option CStr) :
    Calls (StoreOp.On a) (StoreOp.Carries a) (fun _ => True) (managerRegister L cfg (some a) header) := by
  unfold managerRegister
  cases hid : nonEmpty (some a) with
  | none => exact calls_lift _
  | some id =>
    obtain rfl := nonEmpty_some hid
    refine calls_storeGet.bind fun out hout => ?_
    cases out with
    | none => exact calls_lift _
    | some s =>
      have hs : s.id = some id := hout s rfl
      simp only
      split
      · exact calls_lift _
      cases nonEmpty header with
      | none => exact calls_lift _
      | some token =>
        refine (calls_lift (jwtDecodeAndVerify L token proofJwtInit)).bind fun (rc, proof) _ => ?_
        simp only
        split
        · exact calls_lift _
        refine (calls_lift (challengeMatches proof s)).bind fun same _ => ?_
        split
        · exact calls_lift _
        split
        · exact calls_lift _
        refine (ensures_sessionSetPublicKey_id _ proof.jwk).calls.bind fun (_, s₁) h₁ => ?_
        refine (ensures_sessionSetAlgorithm_id s₁ proof.algorithm).calls.bind fun (_, s₂) h₂ => ?_
        exact calls_renewSession (h₂.trans (h₁.trans hs))

theorem calls_managerRefresh (header : Option CStr) :
    Calls (StoreOp.On a) (StoreOp.Carries a) (fun _ => True) (managerRefresh L cfg (some a) header) := by
  unfold managerRefresh
  cases hid : nonEmpty (some a) with
  | none => exact calls_lift _
  | some id =>
    obtain rfl := nonEmpty_some hid
    refine calls_storeGet.bind fun out hout => ?_
    cases out with
    | none => exact calls_lift _
    | some s =>
      have hs : s.id = some id := hout s rfl
      simp only
      split
      · exact calls_lift _
      cases nonEmpty header with
      | none => exact calls_lift _
      | some token =>
        cases s.publicKey with
        | none => exact calls_lift _
        | some key =>
          refine (calls_lift (jwtVerifyWithJwk L token key proofJwtInit)).bind fun (rc, proof) _ => ?_
          simp only
          split
          · exact calls_lift _
          refine (calls_lift (challengeMatches proof s)).bind fun same _ => ?_
          split
          · exact calls_lift _
          · exact calls_renewSession hs

theorem calls_managerClose :
    Calls (StoreOp.On a) (StoreOp.Carries a) (fun _ => True) (managerClose L cfg (some a)) := by
  unfold managerClose
  cases hid : nonEmpty (some a) with
  | none => exact calls_lift _
  | some id =>
    obtain rfl := nonEmpty_some hid
    refine calls_storeGet.bind fun out hout => ?_
    cases out with
    | none => exact calls_lift _
    | some s =>
      refine (calls_lift (copyString s.userId)).bind fun user _ => ?_
      split
      · trivial
      refine (calls_lift (buildInstructionBody L cfg s false)).bind fun body _ => ?_
      cases body with
      | none => trivial
      | some body =>
        refine (calls_lift (buildSetCookieWithMaxAge cfg s.id 0)).bind fun setCookie _ => ?_
        refine calls_storeDelete.bind fun rc _ => ?_
        split
        · trivial
        · exact (calls_lift _).bind fun _ _ => trivial

theorem ManagerCall.On.calls {call : ManagerCall} (h : call.On a) :
    Calls (StoreOp.On a) (StoreOp.Carries a) (fun _ => True) (call.program L cfg) := by
  cases call with
  | initiate user out => exact absurd h not_false
  | register id header =>
    obtain rfl : id = some a := h
    exact (calls_managerRegister header).map
  | refresh id header =>
    obtain rfl : id = some a := h
    exact (calls_managerRefresh header).map
  | close id =>
    obtain rfl : id = some a := h
    exact calls_managerClose.map
  | getSession id =>
    obtain rfl : id = a := h
    exact calls_storeGet.bind fun _ _ => trivial

end

/-! ## What a request comes to -/

/-- What a request did, its reply, and what is then under `a`. -/
def resultOn (a : CStr) (r : List (Event (Sys.sum StoreSig)) × Reply × MemoryStore) :
    List (Event (Sys.sum StoreSig)) × Reply × Option Session := (r.1, r.2.1, r.2.2.record a)

section

variable (L : Extern) (cfg : ManagerConfig) (env : Nat → (o : Sys.Op) → Option (Sys.Ans o)) (n : Nat)

theorem played_alike {a : CStr} {call : ManagerCall} (hon : call.On a) {ms : MemoryStore}
    (hnd : (ms.sessions.map Session.id).Nodup) :
    Option.Rel (fun r r' => r.1 = r'.1 ∧ r.2.1 = r'.2.1 ∧
        r.2.2.Shows a (ms.sessions.filter fun s => !(s.id == some a)) r'.2.2)
      (play env memory n (call.program L cfg) ms) (play env cell n (call.program L cfg) (ms.record a)) :=
  play_alike (fun _ _ _ ho hR => hR.alike ho) env hon.calls (MemoryStore.shows_record hnd a) n

/-- **A request on `a` is a function of the record under `a`.** -/
theorem played_on_record {a : CStr} {call : ManagerCall} (hon : call.On a) {ms : MemoryStore}
    (hnd : (ms.sessions.map Session.id).Nodup) :
    (play env memory n (call.program L cfg) ms).map (resultOn a) =
      play env cell n (call.program L cfg) (ms.record a) := by
  have halike := played_alike L cfg env n hon hnd
  generalize play env memory n (call.program L cfg) ms = played at halike ⊢
  generalize play env cell n (call.program L cfg) (ms.record a) = played' at halike ⊢
  rcases halike with h | -
  · obtain ⟨htr, hreply, hshows⟩ := h
    rw [Option.map_some, resultOn, htr, hreply, hshows.record]
  · rfl

/-- **Sessions do not interfere.** A request on `a` leaves every session under
another id as it is, and two stores with the same record under `a`, or none,
give the same events, reply and new record, whatever the environment. -/
theorem sessions_do_not_interfere {a : CStr} {call : ManagerCall} (hon : call.On a) {ms₁ ms₂ : MemoryStore}
    (hnd₁ : (ms₁.sessions.map Session.id).Nodup) (hnd₂ : (ms₂.sessions.map Session.id).Nodup)
    (hsame : ms₁.record a = ms₂.record a) :
    (∀ tr reply ms', play env memory n (call.program L cfg) ms₁ = some (tr, reply, ms') →
      ∀ s ∈ ms₁.sessions, s.id ≠ some a → s ∈ ms'.sessions) ∧
    (play env memory n (call.program L cfg) ms₁).map (resultOn a) =
      (play env memory n (call.program L cfg) ms₂).map (resultOn a) := by
  constructor
  · intro tr reply ms' hplay s hs hid
    have halike := played_alike L cfg env n hon hnd₁
    rw [hplay] at halike
    generalize play env cell n (call.program L cfg) (ms₁.record a) = played at halike
    rcases halike with h | -
    exact h.2.2.mem_others (List.mem_filter.mpr ⟨hs, by simpa using hid⟩)
  · rw [played_on_record L cfg env n hon hnd₁, played_on_record L cfg env n hon hnd₂, hsame]

end

/-- Two stores with one record under "a" in different company: closing it
leaves each with its other session. -/
theorem sessions_do_not_interfere_close :
    let a : Session := { sessionInit with id := some ("a" : CStr), userId := some ("u" : CStr), state := .bound }
    let b : Session := { sessionInit with id := some ("b" : CStr), userId := some ("v" : CStr) }
    let c : Session := { sessionInit with id := some ("c" : CStr), challenge := some ("x" : CStr) }
    let played (ms : MemoryStore) := play clockEleven memory 0
      (ManagerCall.program (Extern.knowing [] fun _ _ => true)
        ⟨some "session_id", some "/", none, true, some "Lax", 3600, 0, none, false⟩ (.close (some ("a" : CStr)))) ms
    (played ⟨[a, b], 8⟩).map (·.2.1.resp.statusCode) = some 200 ∧
      (∀ tr reply ms', played ⟨[a, b], 8⟩ = some (tr, reply, ms') → b ∈ ms'.sessions) ∧
      (played ⟨[a, b], 8⟩).map (resultOn "a") = (played ⟨[c, a], 8⟩).map (resultOn "a") := by
  intro a b c played
  have hboth := @sessions_do_not_interfere (Extern.knowing [] fun _ _ => true)
    ⟨some "session_id", some "/", none, true, some "Lax", 3600, 0, none, false⟩ clockEleven 0
    "a" (.close (some ("a" : CStr))) rfl ⟨[a, b], 8⟩ ⟨[c, a], 8⟩ (by decide) (by decide) rfl
  exact ⟨by decide +kernel, fun tr reply ms' h => hboth.1 tr reply ms' h b (by decide) (by decide), hboth.2⟩

end OpenDbsc
