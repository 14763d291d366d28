/-
The ids in the memory store, whichever allocations fail.

A call that runs out of memory may leave a slot blank, and a lookup may find
nothing that is there. But no id is ever stored twice, and a session gets into
the array only by a write that the store has taken (`memory_leaves`).
-/
import Mathlib.Data.List.Pairwise
import OpenDbsc.MemoryFailures

namespace OpenDbsc

open Effects Records Prog

/-- No id is stored twice. A slot that a failed copy has left blank has none. -/
def IdsDiffer (sessions : List Session) : Prop := sessions.Pairwise fun s s' => s.id ≠ none → s.id ≠ s'.id

section

variable {xs : List Session} {s s' : Session}

instance : Std.Symm fun s s' : Session => s.id ≠ none → s.id ≠ s'.id :=
  ⟨fun _ _ h hne heq => h (heq ▸ hne) heq.symm⟩

theorem IdsDiffer.eq (h : IdsDiffer xs) (hs : s ∈ xs) (hs' : s' ∈ xs) (hne : s.id ≠ none) (hid : s.id = s'.id) :
    s = s' := by
  by_contra hdiffer
  exact h.forall hs hs' hdiffer hne hid

theorem IdsDiffer.swapRemove (h : IdsDiffer xs) {i : Nat} (hi : i < xs.length) : IdsDiffer (swapRemove xs i) :=
  (List.pairwise_cons.mp (((swapRemove_perm hi).pairwise_iff fun {_ _} => Std.Symm.symm _ _).mpr h)).2

/-- A slot takes a session of the id it has, or is left blank. -/
theorem IdsDiffer.set (h : IdsDiffer xs) (i : Fin xs.length) (hs : s.id = none ∨ s.id = (xs.get i).id) :
    IdsDiffer (xs.set i s) := by
  rw [IdsDiffer, List.pairwise_iff_getElem] at h ⊢
  intro j k hj hk hjk hne
  rw [List.length_set] at hj hk
  have hold := h j k hj hk hjk
  rw [List.getElem_set] at hne
  rw [List.getElem_set, List.getElem_set]
  by_cases hij : i.val = j
  · subst hij
    rw [if_pos rfl] at hne ⊢
    rw [if_neg (Nat.ne_of_lt hjk)]
    have hsame : s.id = xs[i.val].id := hs.resolve_left hne
    rw [hsame] at hne ⊢
    exact hold hne
  · rw [if_neg hij] at hne ⊢
    by_cases hik : i.val = k
    · subst hik
      rw [if_pos rfl]
      rcases hs with hblank | hsame
      · rwa [hblank]
      · rw [hsame]
        exact hold hne
    · rw [if_neg hik]
      exact hold hne

theorem IdsDiffer.concat (h : IdsDiffer xs) (hs : ∀ stored ∈ xs, stored.id ≠ s.id) : IdsDiffer (xs ++ [s]) := by
  refine List.pairwise_append.mpr ⟨h, List.pairwise_singleton _ _, fun stored hstored s' hs' _ => ?_⟩
  rw [List.mem_singleton.mp hs']
  exact hs stored hstored

theorem mem_of_swapRemove {i : Nat} (hi : i < xs.length) (h : s ∈ swapRemove xs i) : s ∈ xs :=
  (swapRemove_perm hi).mem_iff.mp (List.mem_cons_of_mem _ h)

end

/-- The store has taken `s`. -/
def StoreTakes (e : Event StoreSig) (s : Session) : Prop := e = ⟨.create s, (0 : Int)⟩ ∨ e = ⟨.update s, (0 : Int)⟩

/-- What a call leaves: ids that differ; sessions that were there, are blank or have just been taken; what was
taken. What it has found was there. -/
structure Leaving (ms : MemoryStore) (e : Event StoreSig) (ms' : MemoryStore) : Prop where
  differ : IdsDiffer ms'.sessions
  rows : ∀ s ∈ ms'.sessions, s ∈ ms.sessions ∨ s.id = none ∨ StoreTakes e s
  taken : ∀ s, StoreTakes e s → s ∈ ms'.sessions
  found : ∀ id s, e = ⟨.get id, some s⟩ → s ∈ ms.sessions ∧ s.id = id

section

variable {ms ms' : MemoryStore} {s : Session}

/-- A call that takes and finds nothing, and at most removes. -/
theorem leaving_removed {e : Event StoreSig} (hdiffer : IdsDiffer ms'.sessions)
    (hrows : ∀ s ∈ ms'.sessions, s ∈ ms.sessions) (htaken : ∀ s, ¬ StoreTakes e s)
    (hfound : ∀ id s, e ≠ ⟨.get id, some s⟩) : Leaving ms e ms' :=
  ⟨hdiffer, fun s hs => .inl (hrows s hs), fun s hs => absurd hs (htaken s), fun id s he => absurd he (hfound id s)⟩

theorem ensures_memoryStoreReplace (idx : Nat) : Ensures (memoryStoreReplace ms idx s) fun r =>
    r = (-1, { ms with sessions := ms.sessions.set idx sessionInit }) ∨
      r = (0, { ms with sessions := ms.sessions.set idx s }) := by
  unfold memoryStoreReplace
  refine Ensures.bind (ensures_sessionCopy s) fun (rc, copy) hcopy => ?_
  simp only
  split
  · exact Ensures.pure (.inl rfl)
  · rename_i hrc
    obtain rfl : copy = s := hcopy (not_not.mp hrc)
    exact Ensures.pure (.inr rfl)

/-- A write in the slot of the id. -/
theorem leaving_replaced {e : Int → Event StoreSig} (he : ∀ rc s', StoreTakes (e rc) s' ↔ rc = 0 ∧ s' = s)
    (hfound : ∀ rc id s', e rc ≠ ⟨.get id, some s'⟩) (h : IdsDiffer ms.sessions) {idx : Fin ms.sessions.length}
    (hidx : memoryStoreFind ms s.id = some idx) :
    Ensures (memoryStoreReplace ms idx s) fun r => Leaving ms (e r.1) r.2 := by
  have hid := (memoryStoreFind_id hidx).1
  intro tr r ht
  rcases ensures_memoryStoreReplace idx.val tr r ht with rfl | rfl
  · refine ⟨h.set idx (.inl rfl), fun s' hs' => ?_, fun s' htakes => ?_, fun id s' he' => absurd he' (hfound _ _ _)⟩
    · rcases List.mem_or_eq_of_mem_set hs' with hs' | rfl
      · exact .inl hs'
      · exact .inr (.inl rfl)
    · exact absurd ((he (-1) s').mp htakes).1 (by decide)
  · refine ⟨h.set idx (.inr hid.symm), fun s' hs' => ?_, fun s' htakes => ?_,
      fun id s' he' => absurd he' (hfound _ _ _)⟩
    · rcases List.mem_or_eq_of_mem_set hs' with hs' | rfl
      · exact .inl hs'
      · exact .inr (.inr ((he _ _).mpr ⟨rfl, rfl⟩))
    · rw [((he _ _).mp htakes).2]
      exact List.mem_set idx.isLt s

/-- Only writes are taken. -/
theorem not_takes {o : StoreOp} {x : StoreOp.Ans o} (hcreate : ∀ s, o ≠ .create s) (hupdate : ∀ s, o ≠ .update s) :
    ¬ StoreTakes ⟨o, x⟩ s := by
  rintro (h | h)
  · exact hcreate s (congrArg Event.op h)
  · exact hupdate s (congrArg Event.op h)

theorem takes_create {rc : Int} {s' : Session} : StoreTakes ⟨.create s, rc⟩ s' ↔ rc = 0 ∧ s' = s := by
  constructor
  · intro h
    rcases h with h | h <;> cases h
    exact ⟨rfl, rfl⟩
  · rintro ⟨rfl, rfl⟩
    exact .inl rfl

theorem takes_update {rc : Int} {s' : Session} : StoreTakes ⟨.update s, rc⟩ s' ↔ rc = 0 ∧ s' = s := by
  constructor
  · intro h
    rcases h with h | h <;> cases h
    exact ⟨rfl, rfl⟩
  · rintro ⟨rfl, rfl⟩
    exact .inr rfl

/-- A write that fails and moves nothing. -/
theorem leaving_refused {e : Event StoreSig} (h : IdsDiffer ms.sessions) (hsame : ms'.sessions = ms.sessions)
    (htaken : ∀ s, ¬ StoreTakes e s) (hfound : ∀ id s, e ≠ ⟨.get id, some s⟩) : Leaving ms e ms' :=
  leaving_removed (hsame ▸ h) (fun _ hs => hsame ▸ hs) htaken hfound

theorem leaving_create (h : IdsDiffer ms.sessions) :
    Ensures (memoryStoreCreate ms s) fun r => Leaving ms ⟨.create s, r.1⟩ r.2 := by
  have hrefused : ∀ {ms' : MemoryStore}, ms'.sessions = ms.sessions → Leaving ms ⟨.create s, (-1 : Int)⟩ ms' :=
    fun hsame => leaving_refused h hsame (fun s' ht => absurd (takes_create.mp ht).1 (by decide)) fun _ _ => nofun
  unfold memoryStoreCreate
  split
  · exact Ensures.pure (hrefused rfl)
  rename_i hne
  cases hfind : memoryStoreFind ms s.id with
  | some idx => exact leaving_replaced (fun _ _ => takes_create) (fun _ _ _ => nofun) h hfind
  | none =>
    refine Ensures.bind memoryStoreGrow_sessions fun (rc, ms₁) hgrow => ?_
    simp only at hgrow ⊢
    split
    · exact Ensures.pure (hrefused hgrow)
    refine Ensures.bind (ensures_sessionCopy s) fun (rc, copy) hcopy => ?_
    simp only
    split
    · exact Ensures.pure (hrefused hgrow)
    rename_i hrc
    obtain rfl : copy = s := hcopy (not_not.mp hrc)
    refine Ensures.pure ⟨?_, fun s' hs' => ?_, fun s' htakes => ?_, fun _ _ => nofun⟩
    · rw [hgrow]
      exact h.concat ((memoryStoreFind_eq_none.mp hfind).resolve_left hne)
    · rw [hgrow] at hs'
      rcases List.mem_append.mp hs' with hs' | hs'
      · exact .inl hs'
      · exact .inr (.inr (takes_create.mpr ⟨rfl, List.mem_singleton.mp hs'⟩))
    · rw [(takes_create.mp htakes).2]
      exact List.mem_append_right _ (List.mem_singleton_self _)

theorem leaving_update (h : IdsDiffer ms.sessions) :
    Ensures (memoryStoreUpdate ms s) fun r => Leaving ms ⟨.update s, r.1⟩ r.2 := by
  have hrefused : Leaving ms ⟨.update s, (-1 : Int)⟩ ms :=
    leaving_refused h rfl (fun s' ht => absurd (takes_update.mp ht).1 (by decide)) fun _ _ => nofun
  unfold memoryStoreUpdate
  split
  · exact Ensures.pure hrefused
  cases hfind : memoryStoreFind ms s.id with
  | some idx => exact leaving_replaced (fun _ _ => takes_update) (fun _ _ _ => nofun) h hfind
  | none => exact Ensures.pure hrefused

theorem leaving_get (h : IdsDiffer ms.sessions) (id : Option CStr) :
    Ensures (memoryStoreGet ms id) fun r => Leaving ms ⟨.get id, r.1⟩ r.2 := by
  have hmissed : Leaving ms ⟨.get id, (none : Option Session)⟩ ms :=
    leaving_refused h rfl (fun _ => not_takes nofun nofun) fun _ _ he => by cases he
  unfold memoryStoreGet
  cases hfind : memoryStoreFind ms id with
  | none => exact Ensures.pure hmissed
  | some idx =>
    refine Ensures.bind_any fun expired => ?_
    split
    · exact Ensures.pure (leaving_removed (h.swapRemove idx.isLt) (fun _ => mem_of_swapRemove idx.isLt)
        (fun _ => not_takes nofun nofun) fun _ _ he => by cases he)
    refine Ensures.bind_any fun b => ?_
    split
    · exact Ensures.pure hmissed
    refine Ensures.bind (ensures_sessionCopy _) fun (rc, copy) hcopy => ?_
    simp only
    split
    · exact Ensures.pure hmissed
    rename_i hrc
    obtain rfl : copy = ms.sessions[idx] := hcopy (not_not.mp hrc)
    refine Ensures.pure ⟨h, fun _ => .inl, fun _ ht => absurd ht (not_takes nofun nofun), fun id' s he => ?_⟩
    cases he
    exact ⟨List.getElem_mem idx.isLt, (memoryStoreFind_id hfind).1⟩

/-- A sweep only removes. -/
theorem ensures_memoryStoreSweep (h : IdsDiffer ms.sessions) (test : Session → Prog Sys Bool) :
    Ensures (memoryStoreSweep test ms) fun ms' => IdsDiffer ms'.sessions ∧ ∀ s ∈ ms'.sessions, s ∈ ms.sessions := by
  refine Ensures.bind (ensures_sweep (P := fun xs => IdsDiffer xs ∧ ∀ s ∈ xs, s ∈ ms.sessions) ?_ test
    ⟨h, fun _ hs => hs⟩ 0) fun xs hxs => Ensures.pure hxs
  exact fun xs i hi hxs => ⟨hxs.1.swapRemove hi, fun s hs => hxs.2 s (mem_of_swapRemove hi hs)⟩

/-- **What a call of the memory store leaves**, whichever allocations fail. -/
theorem memory_leaves (h : IdsDiffer ms.sessions) (o : StoreOp) :
    Ensures (memory o ms) fun r => Leaving ms ⟨o, r.1⟩ r.2 := by
  cases o with
  | create s => exact leaving_create h
  | get id => exact leaving_get h id
  | update s => exact leaving_update h
  | delete id =>
    have htaken : ∀ (rc : Int) s, ¬ StoreTakes ⟨.delete id, rc⟩ s := fun _ _ => not_takes nofun nofun
    show Ensures (pure (memoryStoreDelete ms id)) _
    unfold memoryStoreDelete
    cases hfind : memoryStoreFind ms id with
    | none => exact Ensures.pure (leaving_refused h rfl (htaken 0) fun _ _ he => by cases he)
    | some idx =>
      exact Ensures.pure (leaving_removed (h.swapRemove idx.isLt) (fun _ => mem_of_swapRemove idx.isLt) (htaken 0)
        fun _ _ he => by cases he)
  | getByUserId userId =>
    have htaken : ∀ (xs : Option (List Session)) s, ¬ StoreTakes ⟨.getByUserId userId, xs⟩ s :=
      fun _ _ => not_takes nofun nofun
    show Ensures (memoryStoreGetByUserId ms userId) _
    unfold memoryStoreGetByUserId
    cases userId with
    | none => exact Ensures.pure (leaving_refused h rfl (htaken none) fun _ _ he => by cases he)
    | some userId =>
      refine Ensures.bind (ensures_memoryStoreSweep h memoryStoreIsExpired) fun ms₁ hms₁ => ?_
      simp only
      have hleft : ∀ xs, Leaving ms ⟨.getByUserId (some userId), xs⟩ ms₁ := fun xs =>
        leaving_removed hms₁.1 hms₁.2 (htaken xs) fun _ _ he => by cases he
      split
      · exact Ensures.pure (hleft _)
      refine Ensures.bind_any fun b => ?_
      split
      · exact Ensures.pure (hleft _)
      · exact Ensures.bind_any fun xs => Ensures.pure (hleft xs)
  | deleteByUserId userId =>
    have htaken : ∀ (rc : Int) s, ¬ StoreTakes ⟨.deleteByUserId userId, rc⟩ s :=
      fun _ _ => not_takes nofun nofun
    show Ensures (memoryStoreDeleteByUserId ms userId) _
    unfold memoryStoreDeleteByUserId
    cases userId with
    | none => exact Ensures.pure (leaving_refused h rfl (htaken 0) fun _ _ he => by cases he)
    | some userId =>
      refine Ensures.bind (ensures_memoryStoreSweep h _) fun ms₁ hms₁ => ?_
      exact Ensures.pure (leaving_removed hms₁.1 hms₁.2 (htaken 0) fun _ _ he => by cases he)

end

end OpenDbsc
