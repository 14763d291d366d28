/-
The memory store refines a finite map (`memory_refines`).

With every allocation succeeding, each call answers as the abstract store does
and leaves the array listing the abstract store's sessions. The sessions named
and within the capacity are the rest of the invariant; that no two have the
same id is the map's own (`Table.nodup`).
-/
import OpenDbsc.Memory

namespace OpenDbsc

open Effects Records Prog

/-! ## With every allocation succeeding -/

@[simp] theorem assuming_memoryStoreIsExpired (s : Session) :
    (memoryStoreIsExpired s).assuming allocOk = memoryStoreIsExpired s := by
  unfold memoryStoreIsExpired
  split
  · rfl
  · simp

/-- The capacity after `memory_store_grow`. -/
def MemoryStore.grown (ms : MemoryStore) : Nat :=
  if ms.count < ms.capacity then ms.capacity
  else if ms.capacity = 0 then memoryStoreInitialCapacity else ms.capacity * 2

@[simp] theorem assuming_memoryStoreGrow (ms : MemoryStore) :
    (memoryStoreGrow ms).assuming allocOk = pure (0, { ms with capacity := ms.grown }) := by
  unfold memoryStoreGrow MemoryStore.grown
  split
  · rfl
  · simp

theorem MemoryStore.count_lt_grown (ms : MemoryStore) (h : ms.count ≤ ms.capacity) : ms.count < ms.grown := by
  unfold grown memoryStoreInitialCapacity
  split
  · assumption
  · split <;> omega

@[simp] theorem assuming_memoryStoreReplace (ms : MemoryStore) (idx : Nat) (s : Session) :
    (memoryStoreReplace ms idx s).assuming allocOk = pure (0, { ms with sessions := ms.sessions.set idx s }) := by
  simp [memoryStoreReplace]

@[simp] theorem assuming_copyAll (ss : List Session) : (copyAll ss).assuming allocOk = pure (some ss) := by
  induction ss with
  | nil => rfl
  | cons s rest ih => simp [copyAll, ih]

@[simp] theorem assuming_memoryStoreSweep {test : Session → Prog Sys Bool}
    (htest : ∀ s, (test s).assuming allocOk = test s) (ms : MemoryStore) :
    (memoryStoreSweep test ms).assuming allocOk = memoryStoreSweep test ms := by
  simp only [memoryStoreSweep, assuming_bind, assuming_sweep, htest, assuming_pure]

/-! ## Clock readings -/

@[simp] theorem readings_nil : readings [] = [] := rfl

@[simp] theorem readings_append (tr₁ tr₂ : List (Event Sys)) :
    readings (tr₁ ++ tr₂) = readings tr₁ ++ readings tr₂ :=
  List.filterMap_append

theorem readings_infix {tr tr' : List (Event Sys)} (h : tr <:+: tr') : readings tr ⊆ readings tr' := by
  obtain ⟨tr₁, tr₂, rfl⟩ := h
  intro now hnow
  simp [hnow]

theorem readings_filter (tr : List (Event Sys)) :
    readings (tr.filter fun e => (allocOk e.op).isNone) = readings tr := by
  unfold readings
  rw [List.filterMap_filter]
  refine List.filterMap_congr fun e _ => ?_
  obtain ⟨o, x⟩ := e
  cases o <;> rfl

theorem trace_time {tr : List (Event Sys)} {now : Int} : Trace time tr now ↔ tr = [⟨.time, now⟩] :=
  trace_perform (S := Sys) (o := .time)

theorem Trace.isExpired {s : Session} {tr : List (Event Sys)} {b : Bool}
    (h : Trace (memoryStoreIsExpired s) tr b) :
    ∃ now, (s.hasExpires = true → now ∈ readings tr) ∧ b = s.expiredAt now := by
  unfold memoryStoreIsExpired at h
  by_cases he : s.hasExpires = true
  · simp only [he, Bool.not_true, Bool.false_eq_true, if_false, trace_bind, trace_pure, trace_time] at h
    obtain ⟨_, now, _, rfl, rfl, rfl, rfl⟩ := h
    exact ⟨now, fun _ => by simp [readings, readingOf], by simp [Session.expiredAt, he]⟩
  · simp only [he, Bool.not_false, if_true, trace_pure] at h
    obtain ⟨-, rfl⟩ := h
    exact ⟨0, fun hc => absurd hc he, by simp [Session.expiredAt, he]⟩

/-! ## The representation -/

/-- The array lists the map's sessions. -/
structure MemoryStore.Represents (ms : MemoryStore) (m : SessionMap) : Prop where
  lists : Table.Lists ms.sessions m
  named : ∀ s ∈ m.rows, s.id ≠ none
  fits : ms.count ≤ ms.capacity

namespace MemoryStore.Represents

variable {ms ms' : MemoryStore} {m m' : SessionMap}

theorem empty : MemoryStore.empty.Represents Table.empty :=
  ⟨rfl, fun _ hs => absurd hs (Multiset.notMem_zero _), Nat.le_refl 0⟩

theorem lookup_none (h : ms.Represents m) : m.lookup none = none :=
  Table.lookup_eq_none.mpr h.named

theorem lookup_of_mem (h : ms.Represents m) {s : Session} (hs : s ∈ ms.sessions) :
    ∃ id, s.id = some id ∧ m.lookup (some id) = some s := by
  have hmem := h.lists.mem_iff.mp hs
  obtain ⟨id, hid⟩ := Option.ne_none_iff_exists'.mp (h.named s hmem)
  exact ⟨id, hid, hid ▸ Table.lookup_of_mem hmem⟩

theorem mem_of_lookup (h : ms.Represents m) {id : Option CStr} {s : Session} (hl : m.lookup id = some s) :
    s ∈ ms.sessions ∧ s.id = id :=
  ⟨h.lists.mem_iff.mpr (Table.lookup_mem hl), Table.lookup_key hl⟩

theorem find_some (h : ms.Represents m) {id : Option CStr} {idx : Fin ms.sessions.length}
    (hf : memoryStoreFind ms id = some idx) :
    (ms.sessions.get idx).id = id ∧ m.lookup id = some (ms.sessions.get idx) := by
  unfold memoryStoreFind at hf
  cases id with
  | none => cases hf
  | some id =>
    have hid : (ms.sessions.get idx).id = some id := by
      have := (List.findFinIdx?_eq_some_iff.mp hf).1
      exact eq_of_beq this
    refine ⟨hid, ?_⟩
    rw [← hid]
    exact h.lists.lookup_getElem idx.isLt

theorem find_none (h : ms.Represents m) {id : Option CStr} (hf : memoryStoreFind ms id = none) :
    m.lookup id = none := by
  unfold memoryStoreFind at hf
  cases id with
  | none => exact h.lookup_none
  | some id =>
    rw [Table.lookup_eq_none]
    intro s hs hid
    have := List.findFinIdx?_eq_none_iff.mp hf s (h.lists.mem_iff.mpr hs)
    exact this (beq_iff_eq.mpr hid)

theorem count_le_of_length (h : ms.Represents m) {sessions : List Session}
    (hlen : sessions.length ≤ ms.sessions.length) : MemoryStore.count { ms with sessions } ≤ ms.capacity :=
  Nat.le_trans hlen h.fits

theorem filter (h : ms.Represents m) {sessions : List Session} {p : Session → Prop} [DecidablePred p]
    (hl : Table.Lists sessions (m.filter p)) : MemoryStore.Represents { ms with sessions } (m.filter p) := by
  refine ⟨hl, fun s hs => h.named s (Table.mem_filter.mp hs).1, h.count_le_of_length ?_⟩
  have hle : Multiset.card (m.filter p).rows ≤ Multiset.card m.rows :=
    Multiset.card_le_card (Multiset.filter_le p m.rows)
  rwa [← hl, ← h.lists, Multiset.coe_card, Multiset.coe_card] at hle

theorem removeAt (h : ms.Represents m) {id : Option CStr} {idx : Fin ms.sessions.length}
    (hf : memoryStoreFind ms id = some idx) : (memoryStoreRemoveAt ms idx).Represents (m.erase id) := by
  have hid := (h.find_some hf).1
  have hl := h.lists.swapRemove idx.isLt
  rw [← hid]
  exact h.filter hl

theorem replace (h : ms.Represents m) {s : Session} (hs : s.id ≠ none) {idx : Fin ms.sessions.length}
    (hf : memoryStoreFind ms s.id = some idx) :
    MemoryStore.Represents { ms with sessions := ms.sessions.set idx s } (m.insert s) := by
  have hid := (h.find_some hf).1
  refine ⟨h.lists.set idx.isLt hid.symm, ?_, h.count_le_of_length (by simp)⟩
  intro s' hs'
  rcases Table.mem_insert.mp hs' with rfl | ⟨hmem, -⟩
  · exact hs
  · exact h.named s' hmem

theorem append (h : ms.Represents m) {s : Session} (hs : s.id ≠ none) (hf : memoryStoreFind ms s.id = none) :
    MemoryStore.Represents ⟨ms.sessions ++ [s], ms.grown⟩ (m.insert s) := by
  refine ⟨h.lists.concat (h.find_none hf), ?_, ?_⟩
  · intro s' hs'
    rcases Table.mem_insert.mp hs' with rfl | ⟨hmem, -⟩
    · exact hs
    · exact h.named s' hmem
  · have := ms.count_lt_grown h.fits
    simp only [MemoryStore.count, List.length_append, List.length_singleton] at this ⊢
    omega

/-! ## One call -/

/-- A call that looks at no expiry, and asks the environment nothing. -/
theorem store_unclocked {o : StoreOp} {x : StoreOp.Ans o} (ho : ∀ s, ¬ SessionMap.Examines o s)
    (h : m.Answers (fun _ => 0) o x m') : SessionMap.store o m [] x m' :=
  ⟨fun _ => rfl, fun _ => 0, fun s _ hs => absurd hs (ho s), h⟩

/-- A call that looks at an expiry. -/
theorem store_clocked {o : StoreOp} {tr : List (Event Sys)} {x : StoreOp.Ans o} {s : Session}
    (ho : SessionMap.Examines o s) {now : Session → Int}
    (hnow : ∀ s ∈ m.rows, SessionMap.Examines o s → s.hasExpires = true → now s ∈ readings tr)
    (h : m.Answers now o x m') : SessionMap.store o m tr x m' :=
  ⟨fun hc => absurd ho (hc s), now, hnow, h⟩

theorem create (h : ms.Represents m) {s : Session} {tr : List (Event Sys)} {rc : Int}
    (ht : Trace ((memoryStoreCreate ms s).assuming allocOk) tr (rc, ms')) :
    ∃ m', SessionMap.store (.create s) m tr rc m' ∧ ms'.Represents m' := by
  unfold memoryStoreCreate at ht
  cases hid : s.id with
  | none =>
    simp only [hid, if_true, assuming_pure, trace_pure, Prod.mk.injEq] at ht
    obtain ⟨rfl, rfl, rfl⟩ := ht
    exact ⟨m, store_unclocked (fun _ => not_false) (by simp [SessionMap.Answers, hid]), h⟩
  | some id =>
    have hs : s.id ≠ none := by simp [hid]
    have hans : m.Answers (fun _ => 0) (.create s) 0 (m.insert s) := by simp [SessionMap.Answers, hid]
    rw [if_neg hs] at ht
    split at ht
    · rename_i idx hf
      simp only [assuming_memoryStoreReplace, trace_pure, Prod.mk.injEq] at ht
      obtain ⟨rfl, rfl, rfl⟩ := ht
      exact ⟨m.insert s, store_unclocked (fun _ => not_false) hans, h.replace hs hf⟩
    · rename_i hf
      simp only [assuming_bind, assuming_memoryStoreGrow, assuming_sessionCopy, pure_bind, ne_eq,
        not_true_eq_false, if_false, assuming_pure, trace_pure, Prod.mk.injEq] at ht
      obtain ⟨rfl, rfl, rfl⟩ := ht
      exact ⟨m.insert s, store_unclocked (fun _ => not_false) hans, h.append hs hf⟩

theorem get (h : ms.Represents m) {id : Option CStr} {tr : List (Event Sys)} {out : Option Session}
    (ht : Trace ((memoryStoreGet ms id).assuming allocOk) tr (out, ms')) :
    ∃ m', SessionMap.store (.get id) m tr out m' ∧ ms'.Represents m' := by
  unfold memoryStoreGet at ht
  split at ht
  · rename_i hf
    simp only [assuming_pure, trace_pure, Prod.mk.injEq] at ht
    obtain ⟨rfl, rfl, rfl⟩ := ht
    have hl := h.find_none hf
    refine ⟨m, ⟨fun _ => rfl, fun _ => 0, ?_, by simp [SessionMap.Answers, hl]⟩, h⟩
    intro s hs hid
    exact absurd hid (Table.lookup_eq_none.mp hl s hs)
  · rename_i idx hf
    obtain ⟨hid, hl⟩ := h.find_some hf
    simp only [assuming_bind, assuming_memoryStoreIsExpired, trace_bind] at ht
    obtain ⟨tr₁, b, tr₂, rfl, hexp, ht⟩ := ht
    obtain ⟨now, hnow, hb⟩ := Trace.isExpired hexp
    have hclock : ∀ s ∈ m.rows, SessionMap.Examines (.get id) s → s.hasExpires = true →
        now ∈ readings (tr₁ ++ tr₂) := by
      intro s hs he hex
      have heq : s = ms.sessions.get idx :=
        Table.unique hs (Table.lookup_mem hl) (he.trans hid.symm)
      rw [heq] at hex
      exact readings_infix (List.prefix_append tr₁ tr₂).isInfix (hnow hex)
    cases b with
    | true =>
      simp only [if_true, assuming_pure, trace_pure, Prod.mk.injEq] at ht
      obtain ⟨rfl, rfl, rfl⟩ := ht
      exact ⟨m.erase id, store_clocked hid hclock (by simpa [SessionMap.Answers, hl] using hb.symm),
        h.removeAt hf⟩
    | false =>
      simp only [Bool.false_eq_true, if_false, assuming_bind, assuming_malloc, pure_bind, Bool.not_true,
        assuming_sessionCopy, ne_eq, not_true_eq_false, assuming_pure, trace_pure, Prod.mk.injEq] at ht
      obtain ⟨rfl, rfl, rfl⟩ := ht
      exact ⟨m, store_clocked hid hclock (by simpa [SessionMap.Answers, hl] using hb.symm), h⟩

theorem update (h : ms.Represents m) {s : Session} {tr : List (Event Sys)} {rc : Int}
    (ht : Trace ((memoryStoreUpdate ms s).assuming allocOk) tr (rc, ms')) :
    ∃ m', SessionMap.store (.update s) m tr rc m' ∧ ms'.Represents m' := by
  unfold memoryStoreUpdate at ht
  by_cases hid : s.id = none
  · rw [if_pos hid, assuming_pure, trace_pure, Prod.mk.injEq] at ht
    obtain ⟨rfl, rfl, rfl⟩ := ht
    have hl : m.lookup s.id = none := hid ▸ h.lookup_none
    exact ⟨m, store_unclocked (fun _ => not_false) (by simp [SessionMap.Answers, hl]), h⟩
  · rw [if_neg hid] at ht
    split at ht
    · rename_i hf
      rw [assuming_pure, trace_pure, Prod.mk.injEq] at ht
      obtain ⟨rfl, rfl, rfl⟩ := ht
      exact ⟨m, store_unclocked (fun _ => not_false) (by simp [SessionMap.Answers, h.find_none hf]), h⟩
    · rename_i idx hf
      rw [assuming_memoryStoreReplace, trace_pure, Prod.mk.injEq] at ht
      obtain ⟨rfl, rfl, rfl⟩ := ht
      exact ⟨m.insert s, store_unclocked (fun _ => not_false) (by simp [SessionMap.Answers, (h.find_some hf).2]),
        h.replace hid hf⟩

theorem delete (h : ms.Represents m) (id : Option CStr) :
    (memoryStoreDelete ms id).1 = 0 ∧ (memoryStoreDelete ms id).2.Represents (m.erase id) := by
  unfold memoryStoreDelete
  split
  · rename_i hf
    rw [Table.erase_of_lookup_none (h.find_none hf)]
    exact ⟨rfl, h⟩
  · rename_i idx hf
    exact ⟨rfl, h.removeAt hf⟩

theorem sweep (h : ms.Represents m) {test : Session → Prog Sys Bool} {tr : List (Event Sys)}
    (ht : Trace (memoryStoreSweep test ms) tr ms') :
    ∃ gone : Session → Bool, ms'.Represents (m.filter fun s => gone s = false) ∧
      ∀ s ∈ m.rows, Tested test tr s (gone s) := by
  simp only [memoryStoreSweep, trace_bind, trace_pure] at ht
  obtain ⟨tr₁, sessions, _, rfl, hsweep, rfl, rfl⟩ := ht
  obtain ⟨gone, hl, hgone⟩ := h.lists.sweep hsweep
  rw [List.append_nil]
  exact ⟨gone, h.filter hl, hgone⟩

theorem expire (h : ms.Represents m) {tr : List (Event Sys)} (ht : Trace (memoryStoreExpire ms) tr ms') :
    ∃ now : Session → Int, (∀ s ∈ m.rows, s.hasExpires = true → now s ∈ readings tr) ∧
      ms'.Represents (m.filter fun s => s.expiredAt (now s) = false) := by
  obtain ⟨gone, hR, hgone⟩ := h.sweep ht
  have hnow : ∀ s : Session, ∃ now, s ∈ m.rows →
      (s.hasExpires = true → now ∈ readings tr) ∧ gone s = s.expiredAt now := by
    intro s
    by_cases hs : s ∈ m.rows
    · obtain ⟨tr', hin, htest⟩ := hgone s hs
      obtain ⟨now, hread, hb⟩ := Trace.isExpired htest
      exact ⟨now, fun _ => ⟨fun he => readings_infix hin (hread he), hb⟩⟩
    · exact ⟨0, fun hc => absurd hc hs⟩
  choose now hnow using hnow
  refine ⟨now, fun s hs => (hnow s hs).1, ?_⟩
  have heq : (m.filter fun s => gone s = false) = m.filter fun s => s.expiredAt (now s) = false := by
    refine Table.ext (Multiset.filter_congr fun s hs => ?_)
    rw [(hnow s hs).2]
  rwa [heq] at hR

theorem getByUserId (h : ms.Represents m) {userId : Option CStr} {tr : List (Event Sys)}
    {out : Option (List Session)} (ht : Trace ((memoryStoreGetByUserId ms userId).assuming allocOk) tr (out, ms')) :
    ∃ m', SessionMap.store (.getByUserId userId) m tr out m' ∧ ms'.Represents m' := by
  unfold memoryStoreGetByUserId at ht
  cases userId with
  | none =>
    simp only [assuming_pure, trace_pure, Prod.mk.injEq] at ht
    obtain ⟨rfl, rfl, rfl⟩ := ht
    exact ⟨m, store_unclocked (fun _ => not_false) ⟨rfl, rfl⟩, h⟩
  | some user =>
    simp only [memoryStoreExpire, assuming_bind, assuming_memoryStoreSweep assuming_memoryStoreIsExpired,
      trace_bind] at ht
    obtain ⟨tr₁, ms₁, tr₂, rfl, hexp, ht⟩ := ht
    obtain ⟨now, hnow, hR⟩ := h.expire hexp
    have hout : tr₂ = [] ∧ out = some (ms₁.sessions.filter fun s => s.userId == some user) ∧ ms' = ms₁ := by
      split at ht
      · rename_i hlen
        simp only [assuming_pure, trace_pure, Prod.mk.injEq] at ht
        rw [List.eq_nil_of_length_eq_zero hlen]
        exact ht
      · simpa using ht
    obtain ⟨rfl, rfl, rfl⟩ := hout
    rw [List.append_nil]
    refine ⟨_, store_clocked (s := sessionInit) trivial (fun s hs _ => hnow s hs) ⟨rfl, _, rfl, ?_⟩, hR⟩
    have hl := hR.lists
    unfold Table.Lists at hl
    rw [← hl, Multiset.filter_coe, Multiset.coe_eq_coe]
    exact List.Perm.of_eq (List.filter_congr fun s _ => beq_eq_decide s.userId (some user))

theorem deleteByUserId (h : ms.Represents m) {userId : Option CStr} {tr : List (Event Sys)} {rc : Int}
    (ht : Trace ((memoryStoreDeleteByUserId ms userId).assuming allocOk) tr (rc, ms')) :
    ∃ m', SessionMap.store (.deleteByUserId userId) m tr rc m' ∧ ms'.Represents m' := by
  unfold memoryStoreDeleteByUserId at ht
  cases userId with
  | none =>
    simp only [assuming_pure, trace_pure, Prod.mk.injEq] at ht
    obtain ⟨rfl, rfl, rfl⟩ := ht
    exact ⟨m, store_unclocked (fun _ => not_false) ⟨rfl, rfl⟩, h⟩
  | some user =>
    simp only [assuming_bind, assuming_memoryStoreSweep fun _ => assuming_pure _, trace_bind, assuming_pure,
      trace_pure, Prod.mk.injEq] at ht
    obtain ⟨tr₁, ms₁, tr₂, rfl, hsweep, rfl, rfl, rfl⟩ := ht
    have hquiet : tr₁ = [] := by
      simp only [memoryStoreSweep, trace_bind, trace_pure] at hsweep
      obtain ⟨tr₂, _, _, rfl, hsweep, rfl, -⟩ := hsweep
      rw [sweep_silent hsweep, List.append_nil]
    obtain ⟨gone, hR, hgone⟩ := h.sweep hsweep
    have heq : (m.filter fun s => gone s = false) = m.filter fun s => s.userId ≠ some user := by
      refine Table.ext (Multiset.filter_congr fun s hs => ?_)
      rw [(hgone s hs).pure, beq_eq_false_iff_ne]
    rw [heq] at hR
    rw [hquiet, List.append_nil]
    exact ⟨_, store_unclocked (fun _ => not_false) ⟨rfl, rfl⟩, hR⟩

/-- **Each call on the memory store is one on the map.** -/
theorem call (h : ms.Represents m) {o : StoreOp} {tr : List (Event Sys)} {x : StoreOp.Ans o}
    (ht : memory.comp o ms tr x ms') (ho : Obeys allocOk tr) :
    ∃ m', SessionMap.store o m (tr.filter fun e => (allocOk e.op).isNone) x m' ∧ ms'.Represents m' := by
  have ht := Trace.assuming ht ho
  cases o with
  | create s => exact h.create ht
  | get id => exact h.get ht
  | update s => exact h.update ht
  | delete id =>
    simp only [memory, assuming_pure, trace_pure, Prod.ext_iff] at ht
    obtain ⟨hquiet, hx, hms⟩ := ht
    obtain ⟨hrc, hR⟩ := h.delete id
    rw [hquiet]
    exact ⟨m.erase id, store_unclocked (fun _ => not_false) ⟨hx.trans hrc, rfl⟩, by rwa [hms]⟩
  | getByUserId userId => exact h.getByUserId ht
  | deleteByUserId userId => exact h.deleteByUserId ht

end MemoryStore.Represents

/-! ## Every sequence of calls -/

theorem SessionMap.store_filter {o : StoreOp} {m m' : SessionMap} {tr : List (Event Sys)} {x : StoreOp.Ans o} :
    SessionMap.store o m (tr.filter fun e => (allocOk e.op).isNone) x m' ↔ SessionMap.store o m tr x m' := by
  unfold store
  rw [readings_filter]

/-- **The memory store refines a finite map with expiry**: over every
sequence of calls it answers as the map does, and its array lists the map's
sessions, no two with the same id, within its capacity. -/
theorem memory_refines {h : List (Transition MemoryStore (Call Sys StoreSig))} {ms : MemoryStore}
    (hrun : Run memory.comp.Step MemoryStore.empty h ms) (halloc : ∀ t ∈ h, Obeys allocOk t.label.events) :
    (∃ h' m, Run SessionMap.store.Step Table.empty h' m ∧ h'.map (·.label) = h.map (·.label) ∧
      (ms.sessions : Multiset Session) = m.rows) ∧
    (ms.sessions.map Session.id).Nodup ∧ ms.count ≤ ms.capacity := by
  have hstep : ∀ {ms c ms' m}, MemoryStore.Represents ms m →
      memory.comp.Step ms c ms' ∧ Obeys allocOk c.events → ∃ m', SessionMap.store.Step m c m' ∧ ms'.Represents m' := by
    intro ms c ms' m hR hcall
    obtain ⟨m', hm, hR'⟩ := hR.call hcall.1 hcall.2
    exact ⟨m', SessionMap.store_filter.mp hm, hR'⟩
  obtain ⟨h', m, hrun', hlabels, hR⟩ := (hrun.restrict halloc).refine MemoryStore.Represents.empty hstep
  exact ⟨⟨h', m, hrun', hlabels, hR.lists⟩, hR.lists.nodup_keys, hR.fits⟩

/-- A clock at 11, and memory enough. -/
def clockEleven (_ : Nat) : (o : Sys.Op) → Option (Sys.Ans o)
  | .time => some 11
  | .malloc _ => some true
  | .library => some true
  | _ => none

theorem clockEleven_allocOk (n : Nat) (o : Sys.Op) (x : Sys.Ans o) (h : allocOk o = some x) :
    clockEleven n o = some x := by
  cases o <;> first | exact h | cases h

def sessionToTen : Session :=
  { sessionInit with id := some ("a" : CStr), userId := some ("u" : CStr), expiresAt := 10, hasExpires := true }

/-- The session is created and, looked up after its expiry, taken out again. -/
theorem memory_refines_create_get : ∃ h, Run memory.comp.Step MemoryStore.empty h ⟨[], 8⟩ ∧
    (h.map fun t => t.post.count) = [1, 0] ∧
    ∃ h' m, Run SessionMap.store.Step Table.empty h' m ∧ h'.map (·.label) = h.map (·.label) ∧
      (([] : List Session) : Multiset Session) = m.rows := by
  have hcreate : follow clockEleven 0 (memory (.create sessionToTen) MemoryStore.empty) =
    some (_, 0, ⟨[sessionToTen], 8⟩) := rfl
  have hget :
    follow clockEleven 0 (memory (.get (some ("a" : CStr))) ⟨[sessionToTen], 8⟩) = some (_, none, ⟨[], 8⟩) := rfl
  have hrun : Run memory.comp.Step MemoryStore.empty _ ⟨[], 8⟩ :=
    (Run.init.step (l := ⟨StoreOp.create sessionToTen, _, _⟩) (trace_follow hcreate)).step
      (l := ⟨StoreOp.get (some ("a" : CStr)), _, _⟩) (trace_follow hget)
  refine ⟨_, hrun, rfl, (memory_refines hrun ?_).1⟩
  intro t ht
  rcases List.mem_pair.mp ht with rfl | rfl
  · exact obeys_follow clockEleven_allocOk hcreate
  · exact obeys_follow clockEleven_allocOk hget

end OpenDbsc
