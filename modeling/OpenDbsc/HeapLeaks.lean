/-
What is left on the heap.

A copy that fails half way is freed by `opendbsc_memory_store_get`, but not the
strings it has made by then. Nothing else is lost: when a caller has given
everything back, those are the only blocks there are (`heap_leaks`).
-/
import OpenDbsc.HeapRuns

namespace OpenDbsc

open Effects Heaps Prog Assertion

/-- The allocations of the program itself that succeed. -/
def grants (tr : List (Event Sys)) : Nat :=
  tr.countP fun e => match e with
    | ⟨.malloc _, true⟩ => true
    | _ => false

/-- The strings a call loses: a lookup that found nothing to return has made a
session, and as many strings. -/
def lostBy (l : Call Sys CallerSig) : Nat :=
  match l with
  | ⟨.get _ _, tr, none⟩ => grants tr - 1
  | _ => 0

theorem ensures_undefined {α : Type} {Q : α → Prop} : Ensures (undefinedBehavior : Prog Sys α) Q := by
  intro tr a ht
  obtain ⟨x, -⟩ := trace_op.mp ht
  exact nomatch x

theorem grants_append (tr tr' : List (Event Sys)) : grants (tr ++ tr') = grants tr + grants tr' := List.countP_append

/-! ## A copy that fails -/

/-- There are as many strings in the session as there were, and were allocated. -/
def Copies (n : Nat) (p : Prog Sys (Int × Session)) : Prop := ∀ tr r, Trace p tr r → r.2.texts.length = n + grants tr

theorem copies_pure {r : Int × Session} {n : Nat} (h : r.2.texts.length = n) : Copies n (pure r) := by
  intro tr r' ht
  obtain ⟨rfl, rfl⟩ := trace_pure.mp ht
  exact h

theorem grants_setString {value : Option CStr} {tr r} (ht : Trace (setString none value) tr r) :
    r.2.toList.length = grants tr := by
  cases value with
  | none =>
    obtain ⟨rfl, rfl⟩ := trace_pure.mp ht
    rfl
  | some value =>
    obtain ⟨tr₁, copy, tr₂, rfl, h₁, h₂⟩ := trace_bind.mp ht
    obtain ⟨tr₃, ok, tr₄, rfl, h₃, h₄⟩ := trace_bind.mp h₁
    obtain rfl := trace_perform.mp h₃
    cases ok with
    | false =>
      obtain ⟨rfl, rfl⟩ := trace_pure.mp h₄
      obtain ⟨rfl, rfl⟩ := trace_pure.mp h₂
      rfl
    | true =>
      obtain ⟨rfl, rfl⟩ := trace_pure.mp h₄
      obtain ⟨rfl, rfl⟩ := trace_pure.mp h₂
      rfl

/-- One field of a copy, and what follows if it was copied. -/
theorem Copies.field {put : Option CStr → Session} {value : Option CStr} {k : Int × Session → Prog Sys (Int × Session)}
    {n : Nat} (hput : ∀ v, (put v).texts.length = n + v.toList.length)
    (hk : ∀ rc v, Copies (n + v.toList.length) (k (rc, put v))) :
    Copies n (setField put none value >>= fun r => if r.1 ≠ 0 then pure (-1, r.2) else k r) := by
  intro tr r ht
  obtain ⟨tr₁, s, tr₂, rfl, h₁, h₂⟩ := trace_bind.mp ht
  obtain ⟨tr₃, v, tr₄, rfl, h₃, h₄⟩ := trace_bind.mp h₁
  obtain ⟨rfl, rfl⟩ := trace_pure.mp h₄
  have hv := grants_setString h₃
  dsimp only at h₂
  rw [grants_append, grants_append, ← hv]
  split at h₂
  · obtain ⟨rfl, rfl⟩ := trace_pure.mp h₂
    exact hput v.2
  · rw [hk v.1 v.2 tr₂ r h₂, ← Nat.add_assoc]
    rfl

theorem copies_sessionCopy (s : Session) : Copies 0 (sessionCopy s) := by
  refine Copies.field (fun v => ?_) fun _ v₁ => ?_
  · simp [Session.texts, sessionInit]
  refine Copies.field (fun v => ?_) fun _ v₂ => ?_
  · simp [Session.texts, sessionInit]
  refine Copies.field (fun v => ?_) fun _ v₃ => ?_
  · simp [Session.texts, sessionInit, Nat.add_assoc]
  refine Copies.field (fun v => ?_) fun _ v₄ => ?_
  · simp [Session.texts, sessionInit, Nat.add_assoc]
  refine Copies.field (fun v => ?_) fun _ v₅ => copies_pure ?_
  · simp [Session.texts, Nat.add_assoc]
  · simp [Session.texts, Nat.add_assoc]

theorem grants_memoryStoreIsExpired {s : Session} {tr expired} (ht : Trace (memoryStoreIsExpired s) tr expired) :
    grants tr = 0 := by
  unfold memoryStoreIsExpired at ht
  split at ht
  · obtain ⟨rfl, rfl⟩ := trace_pure.mp ht
    rfl
  · obtain ⟨tr₁, now, tr₂, rfl, h₁, h₂⟩ := trace_bind.mp ht
    obtain rfl := trace_perform.mp h₁
    obtain ⟨rfl, rfl⟩ := trace_pure.mp h₂
    rfl

theorem lost_memoryStoreGetLeaking {ms : MemoryStore} {id : Option CStr} {tr r} (ht : Trace (memoryStoreGetLeaking ms id) tr r) :
    r.2.length = if r.1.1 = none then grants tr - 1 else 0 := by
  unfold memoryStoreGetLeaking at ht
  split at ht
  · obtain ⟨rfl, rfl⟩ := trace_pure.mp ht
    rfl
  · obtain ⟨tr₁, expired, tr₂, rfl, h₁, h₂⟩ := trace_bind.mp ht
    rw [grants_append, grants_memoryStoreIsExpired h₁, Nat.zero_add]
    cases expired with
    | true =>
      obtain ⟨rfl, rfl⟩ := trace_pure.mp h₂
      rfl
    | false =>
      obtain ⟨tr₃, ok, tr₄, rfl, h₃, h₄⟩ := trace_bind.mp h₂
      obtain rfl := trace_perform.mp h₃
      cases ok with
      | false =>
        obtain ⟨rfl, rfl⟩ := trace_pure.mp h₄
        rfl
      | true =>
        obtain ⟨tr₅, ⟨rc, copy⟩, tr₆, rfl, h₅, h₆⟩ := trace_bind.mp h₄
        have hcopy := copies_sessionCopy _ tr₅ _ h₅
        dsimp only at h₆ hcopy
        split at h₆
        · obtain ⟨rfl, rfl⟩ := trace_pure.mp h₆
          rw [if_pos rfl, hcopy, grants_append, grants_append]
          -- The first allocation is the session, which is freed.
          show 0 + grants tr₅ = 1 + (grants tr₅ + 0) - 1
          omega
        · obtain ⟨rfl, rfl⟩ := trace_pure.mp h₆
          rfl

/-! ## What a caller loses -/

section

variable {α : Type} {v : Caller} {n k : Nat} {slot : Slot}

theorem lost_onStore {call : MemoryStore → Prog Sys (α × MemoryStore)} : Ensures (v.onStore n call) fun r => r.2.lost = v.lost := by
  unfold Caller.onStore
  split
  · exact .bind_any fun r => .pure rfl
  · exact ensures_undefined

theorem ensures_onArray {f : SessionArray → Prog Sys α} {Q : α → Prop} (hf : ∀ a, Ensures (f a) Q) : Ensures (v.onArray k f) Q := by
  unfold Caller.onArray
  split
  · exact hf _
  · exact ensures_undefined

theorem lost_onSession {f : Session → Prog Sys (α × Session)} : Ensures (v.onSession slot f) fun r => r.2.lost = v.lost := by
  refine ensures_onArray fun a => ?_
  split
  · exact ensures_undefined
  · exact .bind_any fun r => .pure rfl

theorem lost_withSession {call : MemoryStore → Session → Prog Sys (α × MemoryStore)} :
    Ensures (v.withSession n slot call) fun r => r.2.lost = v.lost := by
  refine ensures_onArray fun a => ?_
  split
  · exact ensures_undefined
  · exact lost_onStore

end

/-- Only a lookup loses strings. -/
theorem lost_caller_of_ne {o : CallerOp} {v : Caller} (ho : ∀ n id, o ≠ .get n id) :
    Ensures (caller o v) fun r => r.2.lost = v.lost := by
  cases o with
  | newStore =>
    refine .bind_any fun ms => ?_
    cases ms <;> exact .pure rfl
  | create n slot => exact lost_withSession
  | get n id => exact absurd rfl (ho n id)
  | update n slot => exact lost_withSession
  | delete n id => exact lost_onStore
  | getByUserId n userId =>
    refine lost_onStore.bind fun r hr => ?_
    obtain ⟨out, v'⟩ := r
    cases out <;> exact .pure hr
  | deleteByUserId n userId => exact lost_onStore
  | freeSessions n k =>
    refine Ensures.bind (P := fun r => r.2.lost = v.lost) (ensures_onArray fun a => ?_) fun r hr => .pure hr
    split
    · exact ensures_undefined
    · exact lost_onStore
  | destroy n => exact lost_onStore.bind fun r hr => .pure hr
  | declare => exact .pure rfl
  | leave k => exact .bind_any fun r => .pure rfl
  | sessionFree slot => exact lost_onSession
  | setText slot field value => exact lost_onSession
  | setState slot state => exact lost_onSession
  | setExpiresAt slot t => exact lost_onSession
  | setCreatedAt slot t => exact lost_onSession
  | read slot => exact lost_onSession

theorem lost_get {v : Caller} {n : Nat} {id : Option CStr} {tr r} (ht : Trace (caller (.get n id) v) tr r) :
    r.2.lost.length = v.lost.length + lostBy ⟨.get n id, tr, r.1⟩ := by
  obtain ⟨tr₁, ⟨⟨out, lost⟩, v'⟩, tr₂, rfl, h₁, h₂⟩ := trace_bind.mp ht
  have hlost : v'.lost = v.lost ∧ lost.length = if out = none then grants tr₁ - 1 else 0 := by
    unfold Caller.onStore at h₁
    split at h₁
    · obtain ⟨tr₃, ⟨⟨out', lost'⟩, ms⟩, tr₄, rfl, h₃, h₄⟩ := trace_bind.mp h₁
      obtain ⟨tr₅, ⟨⟨out'', ms'⟩, lost''⟩, tr₆, rfl, h₅, h₆⟩ := trace_bind.mp h₃
      have hget := lost_memoryStoreGetLeaking h₅
      obtain ⟨rfl, h₆⟩ := trace_pure.mp h₆
      obtain ⟨rfl, h₄⟩ := trace_pure.mp h₄
      cases h₆
      cases h₄
      rw [List.append_nil, List.append_nil]
      exact ⟨rfl, hget⟩
    · exact (ensures_undefined (Q := fun _ => False) _ _ h₁).elim
  cases out with
  | none =>
    obtain ⟨rfl, rfl⟩ := trace_pure.mp h₂
    dsimp only [lostBy]
    rw [List.length_append, hlost.1, hlost.2, if_pos rfl, List.append_nil]
  | some s =>
    obtain ⟨rfl, rfl⟩ := trace_pure.mp h₂
    dsimp only [lostBy, Caller.keep]
    rw [List.length_append, hlost.1, hlost.2, if_neg nofun]

theorem lost_caller {o : CallerOp} {v : Caller} {tr r} (ht : Trace (caller o v) tr r) :
    r.2.lost.length = v.lost.length + lostBy ⟨o, tr, r.1⟩ := by
  by_cases ho : ∀ n id, o ≠ .get n id
  · rw [lost_caller_of_ne ho tr r ht]
    cases o with
    | get n id => exact absurd rfl (ho n id)
    | _ => rfl
  · obtain ⟨n, id, rfl⟩ : ∃ n id, o = .get n id := by simpa using ho
    exact lost_get ht

/-- As many strings are lost as the calls have lost. -/
theorem lost_run {h : List (Transition Caller (Call Sys CallerSig))} {v : Caller} (hrun : Run caller.comp.Step .empty h v) :
    v.lost.length = (h.map fun t => lostBy t.label).sum := by
  refine hrun.invariant (P := fun h v => v.lost.length = (h.map fun t => lostBy t.label).sum) rfl ?_
  intro h v l v' _ ih hs
  rw [List.map_append, List.sum_append, ← ih]
  exact lost_caller hs

/-! ## What is left -/

theorem handleAt_none (ms : Option MemoryStore) : handleAt none ms ≤ 1 := by
  cases ms with
  | none => exact le_rfl
  | some ms => exact bot_le

theorem heldAt_none (a : Option SessionArray) : heldAt none a ≤ 1 := by
  cases a with
  | none => exact le_rfl
  | some a => exact bot_le

/-- A caller that has given everything back owns what is lost. -/
theorem RawCaller.owns_le_leaked {c : RawCaller} (hstores : ∀ s ∈ c.stores, s = none) (harrays : ∀ a ∈ c.arrays, a = none)
    (v : Caller) : c.owns v ≤ leaked v.lost := by
  have hs : each handleAt c.stores v.stores ≤ 1 := each_le_one (fun s hs ms => hstores s hs ▸ handleAt_none ms) v.stores
  have ha : each heldAt c.arrays v.arrays ≤ 1 := each_le_one (fun a ha a' => harrays a ha ▸ heldAt_none a') v.arrays
  calc c.owns v ≤ 1 * (1 * leaked v.lost) := mul_le_mul' hs (mul_le_mul' ha le_rfl)
    _ = leaked v.lost := by rw [one_mul, one_mul]

/-- **Nothing else leaks**: when every store is destroyed and every session and
array given back, the blocks on the heap are strings, as many as lookups had
copied when their copy failed. -/
theorem heap_leaks {h : List (Transition (RawCaller × Heap HeapBlock) (Call Sys CallerSig))}
    {st : RawCaller × Heap HeapBlock} (hrun : Run callerOnHeap.comp.Step (.empty, .empty) h st)
    (hstores : ∀ s ∈ st.1.stores, s = none) (harrays : ∀ a ∈ st.1.arrays, a = none) :
    ∃ as : List Nat, as.Nodup ∧ as.length = (h.map fun t => lostBy t.label).sum ∧
      (∀ a, st.2.blocks a ≠ none ↔ a ∈ as) ∧ ∀ a b, st.2.blocks a = some b → ∃ t, b = .text t := by
  have hempty : OnHeapAs (.empty, .empty) .empty := owns_empty
  obtain ⟨h', v, hrun', hlabels, hv⟩ := run_alike alike_caller hempty hrun
  have hleft : st.2.blocks ∈ ((v.lost.map HeapBlock.text).map fun b => ⨆ a, pts a b).prod := by
    rw [List.map_map]
    exact le_def.mp (RawCaller.owns_le_leaked hstores harrays v) _ hv
  have hsum : (h'.map fun t => lostBy t.label).sum = (h.map fun t => lostBy t.label).sum := by
    have hmap := congrArg (fun ls => (ls.map lostBy).sum) hlabels
    simpa only [List.map_map, Function.comp_def] using hmap
  obtain ⟨as, hnodup, hlen, hmem, htexts⟩ := mem_prod_pts hleft
  refine ⟨as, hnodup, ?_, hmem, fun a b hb => ?_⟩
  · rw [hlen, List.length_map, lost_run hrun', hsum]
  · obtain ⟨t, -, rfl⟩ := List.mem_map.mp (htexts a b hb)
    exact ⟨t, rfl⟩

theorem heap_leaks_once :
    ∃ (h : List (Transition (RawCaller × Heap HeapBlock) (Call Sys CallerSig))) (st : RawCaller × Heap HeapBlock),
      (h.map fun t => lostBy t.label) = [0, 0, 0, 0, 0, 1, 0, 0] ∧
      ∃ as : List Nat, as.Nodup ∧ as.length = (h.map fun t => lostBy t.label).sum ∧
      (∀ a, st.2.blocks a ≠ none ↔ a ∈ as) ∧ ∀ a b, st.2.blocks a = some b → ∃ t, b = .text t := by
  have hplay : (playInTurn failsOnce callerOnHeap
      [.newStore, .declare, .setText ⟨0, 0⟩ .id (some "a".toList), .setText ⟨0, 0⟩ .userId (some "b".toList),
        .create 0 ⟨0, 0⟩, .get 0 (some "a".toList), .leave 0, .destroy 0] 0 (.empty, .empty)).map
        (fun r => (r.1.map fun t => lostBy t.label, r.2.1)) = some ([0, 0, 0, 0, 0, 1, 0, 0], ⟨[none], [none]⟩) := by
    decide +kernel
  obtain ⟨⟨h, st⟩, hplay, hr⟩ := Option.map_eq_some_iff.mp hplay
  obtain ⟨hlost, hst⟩ := Prod.ext_iff.mp hr
  dsimp only at hlost hst
  refine ⟨h, st, hlost, heap_leaks (run_playInTurn hplay) ?_ ?_⟩
  · simp [hst]
  · simp [hst]

end OpenDbsc
