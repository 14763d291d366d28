/-
The memory store on a heap refines the one on lists.

`ownsStore` says what the store owns: its record, the array, and the strings of
the first `count` slots. Each function takes it from one list of sessions to the
one that `Memory.lean` says, whatever allocation fails.
-/
import OpenDbsc.HeapMemory

namespace OpenDbsc

open Effects Heaps Records Assertion

/-! ## Slots -/

/-- An array, or the null pointer for an empty one. -/
def arrayAt : Option Nat → List (Option RawSession) → Assertion HeapBlock
  | none, slots => ⨆ _ : slots = [], 1
  | some a, slots => pts a (.sessions slots)

section

variable {α α' : Type} {P : Assertion HeapBlock} {q : Prog Sys α'} {Q : α → α' → Assertion HeapBlock} {p : Option Nat}
  {slots : List (Option RawSession)} {i : Nat} {raw src : RawSession} {s d : Session}

theorem slots_bind {f : List (Option RawSession) → OnHeap α} (hslots : slots ≠ [])
    (hr : Refines (arrayAt p slots * P) (f slots) q Q) : Refines (arrayAt p slots * P) (Raw.slots p >>= f) q Q := by
  cases p with
  | none => exact .exists_mul fun hnil => absurd hnil hslots
  | some a =>
    rw [Raw.slots, bind_assoc]
    refine .load_bind ?_
    rw [pure_bind]
    exact hr

theorem sessionAt_bind {f : RawSession → OnHeap α} (hi : slots[i]? = some (some raw))
    (hr : Refines (arrayAt p slots * P) (f raw) q Q) :
    Refines (arrayAt p slots * P) (Raw.sessionAt p i >>= f) q Q := by
  rw [Raw.sessionAt, bind_assoc]
  refine slots_bind (fun hnil => ?_) ?_
  · simp [hnil] at hi
  · simp only [hi, pure_bind]
    exact hr

theorem setSessionAt_bind {f : Unit → OnHeap α} (hi : i < slots.length)
    (hr : Refines (arrayAt p (slots.set i (some raw)) * P) (f ()) q Q) :
    Refines (arrayAt p slots * P) (Raw.setSessionAt p i raw >>= f) q Q := by
  rw [Raw.setSessionAt, bind_assoc]
  refine slots_bind (fun hnil => ?_) ?_
  · simp [hnil] at hi
  · rw [if_pos hi]
    cases p with
    | none => exact .exists_mul fun hnil => by simp [hnil] at hi
    | some a => exact .store_bind hr

theorem initAt_bind {f : Unit → OnHeap α} (hi : i < slots.length)
    (hr : Refines (arrayAt p (slots.set i (some Raw.sessionInit)) * P) (f ()) q Q) :
    Refines (arrayAt p slots * P) (Raw.initAt p i >>= f) q Q := setSessionAt_bind hi hr

theorem freeAt_bind {f : Unit → OnHeap α} (hi : slots[i]? = some (some raw))
    (hr : Refines (arrayAt p (slots.set i (some Raw.sessionInit)) * P) (f ()) q Q) :
    Refines (arrayAt p slots * (raw.owns s * P)) (Raw.freeAt p i >>= f) q Q := by
  rw [Raw.freeAt, bind_assoc]
  refine sessionAt_bind hi ?_
  rw [bind_assoc, mul_left_comm]
  refine sessionFree_bind ?_
  exact setSessionAt_bind (List.getElem?_eq_some_iff.mp hi).1 hr

/-- A copy into a slot: what the slot had is freed. -/
theorem copyInto_bind {f : Int → OnHeap α} {g : Int × Session → Prog Sys α'} (hi : slots[i]? = some (some raw))
    (hr : ∀ rc raw' d', Refines (arrayAt p (slots.set i (some raw')) * (raw'.owns d' * (src.owns s * P))) (f rc)
      (g (rc, d')) Q) :
    Refines (arrayAt p slots * (raw.owns d * (src.owns s * P))) (Raw.copyInto p i src >>= f) (sessionCopy s >>= g) Q := by
  rw [Raw.copyInto, bind_assoc]
  refine sessionAt_bind hi ?_
  rw [bind_assoc, show arrayAt p slots * (raw.owns d * (src.owns s * P)) =
    raw.owns d * src.owns s * (arrayAt p slots * P) by ac_rfl]
  refine (refines_sessionCopy raw src d s).step fun r r' => ?_
  obtain ⟨rc, raw'⟩ := r
  obtain ⟨rc', d'⟩ := r'
  simp only [sessionResult, mul_assoc]
  refine .exists_mul fun hrc => ?_
  obtain rfl : rc = rc' := hrc
  rw [bind_assoc, show raw'.owns d' * (src.owns s * (arrayAt p slots * P)) =
    arrayAt p slots * (raw'.owns d' * (src.owns s * P)) by ac_rfl]
  refine setSessionAt_bind (List.getElem?_eq_some_iff.mp hi).1 ?_
  rw [pure_bind]
  exact hr rc raw' d'

/-! ## What the store owns -/

/-- The store's record, its array and the strings of its sessions. -/
def ownsStore (a : Nat) (st : Option Nat) (ms : MemoryStore) : Assertion HeapBlock :=
  ⨆ (p : Option Nat) (raws : List RawSession) (spare : List (Option RawSession))
    (_ : raws.length + spare.length = ms.capacity),
      pts a (.memoryStore ⟨p, ms.count, ms.capacity, st⟩) *
        (arrayAt p (raws.map some ++ spare) * each RawSession.owns raws ms.sessions)

variable {a : Nat} {st : Option Nat} {ms : MemoryStore} {x : OnHeap α} {raws : List RawSession}
  {spare : List (Option RawSession)} {ss : List Session}

/-- The store's parts. -/
theorem ownsStore_pre (hr : ∀ p raws spare, raws.length = ms.sessions.length → raws.length + spare.length = ms.capacity →
    Refines (pts a (.memoryStore ⟨p, ms.count, ms.capacity, st⟩) *
      (arrayAt p (raws.map some ++ spare) * (each RawSession.owns raws ms.sessions * P))) x q Q) :
    Refines (ownsStore a st ms * P) x q Q := by
  refine .exists_mul fun p => .exists_mul fun raws => .exists_mul fun spare => .exists_mul fun hcapacity => ?_
  rw [each_length]
  simp only [mul_iSup, iSup_mul, mul_assoc]
  exact .exists_pre fun hlen => hr p raws spare hlen hcapacity

/-- And together again. -/
theorem le_ownsStore (a : Nat) (st p : Option Nat) {ms : MemoryStore} {raws : List RawSession}
    {spare : List (Option RawSession)} (hcapacity : raws.length + spare.length = ms.capacity) (P : Assertion HeapBlock) :
    pts a (.memoryStore ⟨p, ms.count, ms.capacity, st⟩) *
      (arrayAt p (raws.map some ++ spare) * (each RawSession.owns raws ms.sessions * P)) ≤ ownsStore a st ms * P := by
  have hle : pts a (.memoryStore ⟨p, ms.count, ms.capacity, st⟩) *
      (arrayAt p (raws.map some ++ spare) * each RawSession.owns raws ms.sessions) ≤ ownsStore a st ms :=
    le_iSup_of_le p (le_iSup_of_le raws (le_iSup_of_le spare (le_iSup_of_le hcapacity le_rfl)))
  calc _ = _ * (_ * _) * P := by simp only [mul_assoc]
    _ ≤ _ := mul_le_mul_left hle P

theorem cast_bind {raw : RawMemoryStore} {f : RawMemoryStore → OnHeap α}
    (hr : Refines (pts a (.memoryStore raw) * P) (f raw) q Q) :
    Refines (pts a (.memoryStore raw) * P) (Raw.memoryStoreCast (some a) >>= f) q Q := by
  rw [Raw.memoryStoreCast, bind_assoc]
  refine .load_bind ?_
  rw [pure_bind]
  exact hr

/-- The record is read. -/
theorem castStore_bind {f : RawMemoryStore → OnHeap α}
    (hr : ∀ p, Refines (ownsStore a st ms * P) (f ⟨p, ms.count, ms.capacity, st⟩) q Q) :
    Refines (ownsStore a st ms * P) (Raw.memoryStoreCast (some a) >>= f) q Q := by
  refine ownsStore_pre fun p raws spare hlen hcapacity => ?_
  refine cast_bind ?_
  exact .pre (hr p) (le_ownsStore a st p hcapacity P)

theorem getElem?_slots (hi : i < raws.length) : (raws.map some ++ spare)[i]? = some (some raws[i]) := by
  rw [List.getElem?_append_left (by simpa using hi)]
  simp [hi]

/-- One session of the array is looked at. -/
theorem elem_bind {f : RawSession → OnHeap α} (hi : i < raws.length) (hi' : i < ss.length)
    (hr : Refines (raws[i].owns ss[i] * (arrayAt p (raws.map some ++ spare) *
      (each RawSession.owns (raws.eraseIdx i) (ss.eraseIdx i) * P))) (f raws[i]) q Q) :
    Refines (arrayAt p (raws.map some ++ spare) * (each RawSession.owns raws ss * P)) (Raw.sessionAt p i >>= f) q Q := by
  refine sessionAt_bind (getElem?_slots hi) ?_
  rw [each_get hi hi', mul_assoc, mul_left_comm]
  exact hr

/-- And put back. -/
theorem elem_eq (hi : i < raws.length) (hi' : i < ss.length) :
    raws[i].owns ss[i] * (arrayAt p (raws.map some ++ spare) *
      (each RawSession.owns (raws.eraseIdx i) (ss.eraseIdx i) * P)) =
    arrayAt p (raws.map some ++ spare) * (each RawSession.owns raws ss * P) := by
  rw [each_get hi hi', mul_assoc, mul_left_comm]

/-! ## Finding -/

theorem findFrom_bind {id : CStr} {n : Nat} {f : Option Nat → OnHeap α} (hlen : raws.length = ss.length)
    (hn : i + n = ss.length)
    (hr : Refines (arrayAt p (raws.map some ++ spare) * (each RawSession.owns raws ss * P))
      (f (((ss.drop i).findIdx? fun s => s.id == some id).map (i + ·))) q Q) :
    Refines (arrayAt p (raws.map some ++ spare) * (each RawSession.owns raws ss * P)) (Raw.findFrom p id n i >>= f) q Q := by
  induction n generalizing i with
  | zero =>
    rw [List.drop_of_length_le (by omega)] at hr
    exact hr
  | succ n ih =>
    have hi : i < ss.length := by omega
    rw [Raw.findFrom, bind_assoc]
    refine elem_bind (hlen ▸ hi) hi ?_
    rw [bind_assoc]
    refine readId_bind ?_
    rw [elem_eq]
    rw [List.drop_eq_getElem_cons hi, List.findIdx?_cons] at hr
    by_cases hid : ss[i].id = some id
    · rw [if_pos hid, pure_bind]
      simpa [hid] using hr
    · rw [if_neg hid]
      refine ih (by omega) ?_
      rw [if_neg (by simpa using hid), Option.map_map] at hr
      have hshift : ((i + ·) ∘ (· + 1)) = (i + 1 + ·) := by
        funext k
        simp only [Function.comp_apply]
        omega
      rwa [hshift] at hr

/-- **The scan finds what `memoryStoreFind` says.** -/
theorem find_bind {id : Option CStr} {f : Option Nat → OnHeap α}
    (hr : Refines (ownsStore a st ms * P) (f ((memoryStoreFind ms id).map Fin.val)) q Q) :
    Refines (ownsStore a st ms * P) (Raw.memoryStoreFind (some a) id >>= f) q Q := by
  cases id with
  | none => exact hr
  | some id =>
    refine ownsStore_pre fun p raws spare hlen hcapacity => ?_
    rw [Raw.memoryStoreFind, bind_assoc]
    refine cast_bind ?_
    rw [mul_rotate_right]
    refine findFrom_bind hlen (Nat.zero_add _) ?_
    rw [← mul_rotate_right]
    refine .pre ?_ (le_ownsStore a st p hcapacity P)
    have hfind : ((ms.sessions.drop 0).findIdx? fun s => s.id == some id).map (0 + ·) =
        (memoryStoreFind ms (some id)).map Fin.val := by
      simp [memoryStoreFind, List.findIdx?_eq_map_findFinIdx?_val, Function.comp_def]
    rw [hfind]
    exact hr

/-! ## Removing -/

/-- The slot behind the last session keeps what was there. -/
theorem slots_remove (spare : List (Option RawSession)) (hi : i < raws.length) : ∃ stale, (if i ≠ raws.length - 1 then
      ((raws.map some ++ spare).set i (some Raw.sessionInit)).set i (some raws[raws.length - 1])
    else (raws.map some ++ spare).set i (some Raw.sessionInit)) = (swapRemove raws i).map some ++ some stale :: spare := by
  rcases List.eq_nil_or_concat raws with rfl | ⟨ys, last, rfl⟩
  · cases hi
  · simp only [List.concat_eq_append] at hi ⊢
    rw [swapRemove_concat]
    by_cases hlast : i = ys.length
    · subst hlast
      refine ⟨Raw.sessionInit, ?_⟩
      rw [if_neg (by simp), List.set_eq_of_length_le (Nat.le_refl _)]
      simp
    · have hlt : i < ys.length := by
        rw [List.length_append, List.length_singleton] at hi
        omega
      refine ⟨last, ?_⟩
      rw [if_pos (by simp [hlast]), List.set_set]
      simp [List.set_append_left, hlt, List.map_set]

theorem each_swapRemove (hi : i < raws.length) (hi' : i < ss.length) (hlen : raws.length = ss.length) :
    each RawSession.owns raws ss =
      raws[i].owns ss[i] * each RawSession.owns (swapRemove raws i) (swapRemove ss i) := by
  rcases List.eq_nil_or_concat raws with rfl | ⟨ys, last, rfl⟩
  · cases hi
  · rcases List.eq_nil_or_concat ss with rfl | ⟨zs, last', rfl⟩
    · cases hi'
    · simp only [List.concat_eq_append] at hi hi' hlen ⊢
      rw [swapRemove_concat, swapRemove_concat]
      have hlen : ys.length = zs.length := by simpa using hlen
      by_cases hlast : i = ys.length
      · subst hlast
        rw [List.set_eq_of_length_le (Nat.le_refl _), List.set_eq_of_length_le (by omega), each_concat hlen]
        simp [hlen]
      · have hlt : i < ys.length := by
          rw [List.length_append, List.length_singleton] at hi
          omega
        rw [each_concat hlen, each_get hlt (hlen ▸ hlt), each_set hlt (hlen ▸ hlt),
          List.getElem_append_left hlt, List.getElem_append_left (hlen ▸ hlt), mul_left_comm]

/-- The store without one of its sessions, whose strings are freed. -/
theorem removeAt_bind {f : Unit → OnHeap α} (hi : i < ms.sessions.length)
    (hr : Refines (ownsStore a st (memoryStoreRemoveAt ms i) * P) (f ()) q Q) :
    Refines (ownsStore a st ms * P) (Raw.memoryStoreRemoveAt (some a) i >>= f) q Q := by
  refine ownsStore_pre fun p raws spare hlen hcapacity => ?_
  have hi' : i < raws.length := hlen ▸ hi
  rw [Raw.memoryStoreRemoveAt, bind_assoc]
  refine cast_bind ?_
  rw [bind_assoc, mul_left_comm, each_swapRemove hi' hi hlen, mul_assoc]
  rw [show arrayAt p (raws.map some ++ spare) * (pts a (.memoryStore ⟨p, ms.count, ms.capacity, st⟩) *
      (raws[i].owns ms.sessions[i] * (each RawSession.owns (swapRemove raws i) (swapRemove ms.sessions i) * P))) =
    arrayAt p (raws.map some ++ spare) * (raws[i].owns ms.sessions[i] * (pts a (.memoryStore ⟨p, ms.count, ms.capacity, st⟩) *
      (each RawSession.owns (swapRemove raws i) (swapRemove ms.sessions i) * P))) by ac_rfl]
  refine freeAt_bind (getElem?_slots hi') ?_
  obtain ⟨stale, hslots⟩ := slots_remove spare hi'
  have hcount : ms.count = raws.length := hlen.symm
  have hdone : Refines (arrayAt p ((swapRemove raws i).map some ++ some stale :: spare) *
      (pts a (.memoryStore ⟨p, ms.count, ms.capacity, st⟩) *
        (each RawSession.owns (swapRemove raws i) (swapRemove ms.sessions i) * P)))
      (store (some a) (.memoryStore ⟨p, ms.count - 1, ms.capacity, st⟩) >>= f) q Q := by
    rw [mul_left_comm]
    refine .store_bind (.pre hr ?_)
    have hcapacity' : (swapRemove raws i).length + (some stale :: spare).length = (memoryStoreRemoveAt ms i).capacity := by
      rw [length_swapRemove hi', List.length_cons, ← show ms.capacity = (memoryStoreRemoveAt ms i).capacity from rfl]
      omega
    have hle := le_ownsStore a st p hcapacity' P
    rwa [MemoryStore.count, show (memoryStoreRemoveAt ms i).sessions = swapRemove ms.sessions i from rfl,
      length_swapRemove hi] at hle
  rw [hcount] at hdone ⊢
  by_cases hlast : i ≠ raws.length - 1
  · rw [if_pos hlast] at hslots ⊢
    rw [bind_assoc]
    have hget : ((raws.map some ++ spare).set i (some Raw.sessionInit))[raws.length - 1]? =
        some (some raws[raws.length - 1]) := by
      rw [List.getElem?_set_ne hlast]
      exact getElem?_slots (by omega)
    refine sessionAt_bind hget ?_
    rw [bind_assoc]
    refine setSessionAt_bind ?_ ?_
    · simp only [List.length_set, List.length_append, List.length_map]
      omega
    · rw [hslots]
      exact hdone
  · rw [if_neg hlast] at hslots ⊢
    rw [hslots]
    exact hdone

/-! ## Sweeping -/

/-- A test of a session that owns what it did. -/
def Tests (rawTest : RawSession → OnHeap Bool) (test : Session → Prog Sys Bool) : Prop :=
  ∀ raw s, Refines (RawSession.owns raw s) (rawTest raw) (test s) fun b b' => ⨆ _ : b = b', raw.owns s

theorem Tests.bind {rawTest : RawSession → OnHeap Bool} {test : Session → Prog Sys Bool} (htest : Tests rawTest test)
    {f : Bool → OnHeap α} {g : Bool → Prog Sys α'} (hr : ∀ b, Refines (raw.owns s * P) (f b) (g b) Q) :
    Refines (raw.owns s * P) (rawTest raw >>= f) (test s >>= g) Q := by
  refine (htest raw s).step fun b b' => .exists_mul fun hb => ?_
  obtain rfl : b = b' := hb
  exact hr b

theorem tests_isExpired : Tests Raw.memoryStoreIsExpired memoryStoreIsExpired := by
  intro raw s
  rw [owns_same]
  refine .exists_pre fun hsame => ?_
  rw [Raw.memoryStoreIsExpired, memoryStoreIsExpired, hsame.2.2.1, hsame.2.1]
  by_cases hexpires : (!s.hasExpires) = true
  · rw [if_pos hexpires, if_pos hexpires]
    exact .pure (by simp [hsame])
  · rw [if_neg hexpires, if_neg hexpires]
    exact .ask_bind fun now => .pure (by simp [hsame])

theorem tests_isOf (userId : CStr) : Tests (Raw.isOf userId) fun s => pure (s.userId == some userId) := by
  intro raw s
  rw [← mul_one (raw.owns s)]
  refine readUserId_bind (.pure ?_)
  simp

theorem refines_sweep {rawTest : RawSession → OnHeap Bool} {test : Session → Prog Sys Bool} (htest : Tests rawTest test)
    {n : Nat} (hn : i + n = ms.count) :
    Refines (ownsStore a st ms) (Raw.memoryStoreSweep rawTest (some a) n i) (sweep test ms.sessions i) fun _ ss =>
      ownsStore a st { ms with sessions := ss } := by
  induction n generalizing ms i with
  | zero =>
    rw [sweep_ge test (show ms.sessions.length ≤ i from Nat.le_of_eq hn.symm)]
    exact .pure le_rfl
  | succ n ih =>
    have hi : i < ms.sessions.length := by
      rw [MemoryStore.count] at hn
      omega
    rw [sweep_lt test hi, Raw.memoryStoreSweep, ← mul_one (ownsStore a st ms)]
    refine ownsStore_pre fun p raws spare hlen hcapacity => ?_
    refine cast_bind ?_
    rw [if_pos (show i < ms.count from hi), mul_rotate_right]
    refine elem_bind (hlen ▸ hi) hi ?_
    refine htest.bind fun b => ?_
    rw [elem_eq, ← mul_rotate_right]
    refine .pre ?_ (le_ownsStore a st p hcapacity 1)
    cases b with
    | true =>
      refine removeAt_bind hi ?_
      rw [mul_one]
      have hn' : i + n = (memoryStoreRemoveAt ms i).count := by
        rw [MemoryStore.count] at hn ⊢
        rw [show (memoryStoreRemoveAt ms i).sessions = swapRemove ms.sessions i from rfl, length_swapRemove hi]
        omega
      exact ih hn'
    | false =>
      rw [mul_one]
      exact ih (by omega)

/-! ## Writing -/

/-- The same code, and what the store owns then. -/
def storeResult (a : Nat) (st : Option Nat) (r : Int) (r' : Int × MemoryStore) : Assertion HeapBlock :=
  ⨆ _ : r = r'.1, ownsStore a st r'.2

theorem slots_set (hi : i < raws.length) (raw : RawSession) :
    (raws.map some ++ spare).set i (some raw) = (raws.set i raw).map some ++ spare := by
  rw [List.set_append_left _ _ (by simpa using hi), List.map_set]

/-- A session put in the place of another. -/
theorem set_le_ownsStore (a : Nat) (st p : Option Nat) (hi : i < ms.sessions.length) (hlen : raws.length = ms.sessions.length)
    (hcapacity : raws.length + spare.length = ms.capacity) (raw : RawSession) (s : Session) (P : Assertion HeapBlock) :
    arrayAt p ((raws.map some ++ spare).set i (some raw)) * (raw.owns s *
      (pts a (.memoryStore ⟨p, ms.count, ms.capacity, st⟩) *
        (each RawSession.owns (raws.eraseIdx i) (ms.sessions.eraseIdx i) * P))) ≤
    ownsStore a st { ms with sessions := ms.sessions.set i s } * P := by
  have hi' : i < raws.length := hlen ▸ hi
  have hcapacity' : (raws.set i raw).length + spare.length = ({ ms with sessions := ms.sessions.set i s } : MemoryStore).capacity := by
    rwa [List.length_set]
  refine le_trans (le_of_eq ?_) (le_ownsStore a st p hcapacity' P)
  rw [slots_set hi', each_set hi' hi]
  simp only [MemoryStore.count, List.length_set]
  ac_rfl

theorem refines_replace (hi : i < ms.sessions.length) :
    Refines (ownsStore a st ms * src.owns s) (Raw.memoryStoreReplace (some a) i src) (memoryStoreReplace ms i s)
      fun r r' => storeResult a st r r' * src.owns s := by
  refine ownsStore_pre fun p raws spare hlen hcapacity => ?_
  have hi' : i < raws.length := hlen ▸ hi
  refine cast_bind ?_
  rw [each_get hi' hi, mul_assoc, mul_rotate_right]
  refine freeAt_bind (getElem?_slots hi') ?_
  have hslot : ((raws.map some ++ spare).set i (some Raw.sessionInit))[i]? = some (some Raw.sessionInit) := by
    rw [List.getElem?_set_self (by simp; omega)]
  rw [show arrayAt p ((raws.map some ++ spare).set i (some Raw.sessionInit)) *
      (pts a (.memoryStore ⟨p, ms.count, ms.capacity, st⟩) *
        (each RawSession.owns (raws.eraseIdx i) (ms.sessions.eraseIdx i) * src.owns s)) =
    arrayAt p ((raws.map some ++ spare).set i (some Raw.sessionInit)) * (Raw.sessionInit.owns sessionInit * (src.owns s *
      (pts a (.memoryStore ⟨p, ms.count, ms.capacity, st⟩) *
        each RawSession.owns (raws.eraseIdx i) (ms.sessions.eraseIdx i)))) by rw [owns_init, one_mul]; ac_rfl]
  refine copyInto_bind hslot fun rc raw' d' => ?_
  rw [List.set_set]
  dsimp only
  by_cases hrc : rc ≠ 0
  · rw [if_pos hrc, if_pos hrc]
    refine freeAt_bind (by rw [List.getElem?_set_self (by simp; omega)]) ?_
    rw [List.set_set]
    refine initAt_bind (by simp; omega) ?_
    rw [List.set_set]
    refine .pure ?_
    have hle := set_le_ownsStore a st p hi hlen hcapacity Raw.sessionInit sessionInit (src.owns s)
    rw [owns_init, one_mul] at hle
    refine le_trans (le_of_eq ?_) (hle.trans (by simp [storeResult]))
    ac_rfl
  · rw [if_neg hrc, if_neg hrc]
    refine .pure ?_
    have hle := set_le_ownsStore a st p hi hlen hcapacity raw' d' (src.owns s)
    refine le_trans (le_of_eq ?_) (hle.trans (by simp [storeResult]))
    ac_rfl

/-! ## Growing -/

theorem grown_slots {slots : List (Option RawSession)} {capacity : Nat} (h : slots.length ≤ capacity) :
    Raw.grown capacity (some (.sessions slots)) =
      .sessions (slots ++ List.replicate (capacity - slots.length) none) := by
  rw [Raw.grown, List.take_of_length_le h]

/-- With room for one more, unless there is no memory. -/
theorem refines_grow : Refines (ownsStore a st ms) (Raw.memoryStoreGrow (some a)) (memoryStoreGrow ms) fun r r' =>
    ⨆ _ : r'.2.sessions = ms.sessions ∧ (r = 0 → ms.count < r'.2.capacity), storeResult a st r r' := by
  rw [← mul_one (ownsStore a st ms)]
  refine ownsStore_pre fun p raws spare hlen hcapacity => ?_
  have hcount : raws.length = ms.count := hlen
  rw [Raw.memoryStoreGrow, memoryStoreGrow]
  refine cast_bind ?_
  dsimp only
  by_cases hroom : ms.count < ms.capacity
  · rw [if_pos hroom, if_pos hroom]
    refine .pure ?_
    have hle := le_ownsStore a st p hcapacity 1
    simpa [storeResult, hroom] using hle
  · rw [if_neg hroom, if_neg hroom]
    have hspare : spare = [] := List.eq_nil_of_length_eq_zero (by omega)
    subst hspare
    have hfull : raws.length = ms.capacity := by simpa using hcapacity
    generalize hnew : (if ms.capacity = 0 then memoryStoreInitialCapacity else ms.capacity * 2) = newCapacity
    have hlt : ms.capacity < newCapacity := by
      rw [← hnew]
      split
      · rename_i hzero
        rw [hzero]
        decide
      · omega
    have hdone : ∀ b, Refines
        (pts b (.sessions (raws.map some ++ List.replicate (newCapacity - ms.capacity) none)) *
          (pts a (.memoryStore ⟨p, ms.count, ms.capacity, st⟩) * (each RawSession.owns raws ms.sessions * 1)))
        (do
          store (some a) (.memoryStore ⟨some b, ms.count, newCapacity, st⟩)
          return 0)
        (pure (0, { ms with capacity := newCapacity }) : Prog Sys (Int × MemoryStore))
        fun r r' => ⨆ _ : r'.2.sessions = ms.sessions ∧ (r = 0 → ms.count < r'.2.capacity), storeResult a st r r' := by
      intro b
      rw [mul_left_comm]
      refine .store_bind (.pure ?_)
      have hcapacity' : raws.length + (List.replicate (newCapacity - ms.capacity) (none : Option RawSession)).length =
          ({ ms with capacity := newCapacity } : MemoryStore).capacity := by
        rw [List.length_replicate]
        dsimp only
        omega
      have hle := le_ownsStore a st (some b) hcapacity' 1
      have hroom' : ms.sessions.length < newCapacity := by omega
      simpa [storeResult, hroom', arrayAt, MemoryStore.count] using hle
    have hfail : Refines
        (pts a (.memoryStore ⟨p, ms.count, ms.capacity, st⟩) *
          (arrayAt p (raws.map some ++ []) * (each RawSession.owns raws ms.sessions * 1)))
        (pure (-1)) (pure (-1, ms) : Prog Sys (Int × MemoryStore))
        fun r r' => ⨆ _ : r'.2.sessions = ms.sessions ∧ (r = 0 → ms.count < r'.2.capacity), storeResult a st r r' := by
      refine .pure ?_
      have hle := le_ownsStore a st p hcapacity 1
      simpa [storeResult] using hle
    cases p with
    | none =>
      rw [mul_left_comm]
      refine .exists_mul fun hnil => ?_
      have hraws : raws = [] := by simpa using hnil
      have hzero : ms.capacity = 0 := by simpa [hraws] using hfull.symm
      subst hraws
      rw [one_mul]
      refine .alloc_bind (fun b => ?_) ?_
      · simpa [hzero, Raw.grown] using hdone b
      · simpa [arrayAt] using hfail
    | some b =>
      rw [mul_left_comm, arrayAt]
      refine .reallocate_bind (fun b' => ?_) ?_
      · rw [grown_slots (by simp; omega)]
        simpa [hfull] using hdone b'
      · rw [mul_left_comm]
        exact hfail

/-! ## The calls -/

theorem slots_set_next (x : Option RawSession) (raw : RawSession) :
    (raws.map some ++ x :: spare).set raws.length (some raw) = raws.map some ++ some raw :: spare := by
  simp

/-- A session written behind the last one. -/
theorem refines_append (hroom : ms.sessions.length < ms.capacity) :
    Refines (ownsStore a st ms * src.owns s)
      (do
        let ms ← Raw.memoryStoreCast (some a)
        Raw.initAt ms.sessions ms.count
        let rc ← Raw.copyInto ms.sessions ms.count src
        if rc ≠ 0 then
          Raw.freeAt ms.sessions ms.count
          Raw.initAt ms.sessions ms.count
          return -1
        store (some a) (.memoryStore { ms with count := ms.count + 1 })
        return 0)
      (do
        let (rc, copy) ← sessionCopy s
        if rc ≠ 0 then return (-1, ms)
        return (0, { ms with sessions := ms.sessions ++ [copy] }))
      fun r r' => storeResult a st r r' * src.owns s := by
  refine ownsStore_pre fun p raws spare hlen hcapacity => ?_
  cases spare with
  | nil =>
    rw [List.length_nil] at hcapacity
    omega
  | cons slot spare =>
    have hcount : ms.count = raws.length := hlen.symm
    rw [hcount]
    refine cast_bind ?_
    rw [mul_left_comm]
    refine initAt_bind (by simp) ?_
    rw [slots_set_next]
    have hget : (raws.map some ++ some Raw.sessionInit :: spare)[raws.length]? = some (some Raw.sessionInit) := by
      simp
    rw [show arrayAt p (raws.map some ++ some Raw.sessionInit :: spare) *
        (pts a (.memoryStore ⟨p, raws.length, ms.capacity, st⟩) * (each RawSession.owns raws ms.sessions * src.owns s)) =
      arrayAt p (raws.map some ++ some Raw.sessionInit :: spare) * (Raw.sessionInit.owns sessionInit * (src.owns s *
        (pts a (.memoryStore ⟨p, raws.length, ms.capacity, st⟩) * each RawSession.owns raws ms.sessions))) by
      rw [owns_init, one_mul]
      ac_rfl]
    refine copyInto_bind hget fun rc raw' d' => ?_
    rw [slots_set_next]
    dsimp only
    by_cases hrc : rc ≠ 0
    · rw [if_pos hrc, if_pos hrc]
      refine freeAt_bind (by simp) ?_
      rw [slots_set_next]
      refine initAt_bind (by simp) ?_
      rw [slots_set_next]
      refine .pure ?_
      have hcapacity' : raws.length + (some Raw.sessionInit :: spare).length = ms.capacity := hcapacity
      have hle := le_ownsStore a st p hcapacity' (src.owns s)
      rw [hcount] at hle
      refine le_trans (le_of_eq ?_) (hle.trans (by simp [storeResult]))
      ac_rfl
    · rw [if_neg hrc, if_neg hrc]
      rw [show arrayAt p (raws.map some ++ some raw' :: spare) * (raw'.owns d' * (src.owns s *
          (pts a (.memoryStore ⟨p, raws.length, ms.capacity, st⟩) * each RawSession.owns raws ms.sessions))) =
        pts a (.memoryStore ⟨p, raws.length, ms.capacity, st⟩) * (arrayAt p (raws.map some ++ some raw' :: spare) *
          (raw'.owns d' * each RawSession.owns raws ms.sessions * src.owns s)) by ac_rfl]
      refine .store_bind (.pure ?_)
      have hcapacity' : (raws ++ [raw']).length + spare.length =
          ({ ms with sessions := ms.sessions ++ [d'] } : MemoryStore).capacity := by
        rw [List.length_append, List.length_singleton, ← hcapacity, List.length_cons]
        omega
      have hle := le_ownsStore a st p hcapacity' (src.owns s)
      rw [MemoryStore.count, List.length_append, List.length_singleton, ← hlen, each_concat hlen] at hle
      simpa [storeResult] using hle

theorem refines_create : Refines (ownsStore a st ms * src.owns s) (Raw.memoryStoreCreate (some a) src)
    (memoryStoreCreate ms s) fun r r' => storeResult a st r r' * src.owns s := by
  rw [Raw.memoryStoreCreate, memoryStoreCreate, owns_id_null]
  simp only [mul_iSup]
  refine .exists_pre fun hnull => ?_
  simp only [hnull, iSup_pos]
  by_cases hid : s.id = none
  · rw [if_pos hid, if_pos hid]
    exact .pure (by simp [storeResult])
  · rw [if_neg hid, if_neg hid, mul_comm]
    refine readId_bind ?_
    rw [mul_comm]
    refine find_bind ?_
    cases hfind : memoryStoreFind ms s.id with
    | some idx => exact refines_replace idx.isLt
    | none =>
      refine refines_grow.step fun rc r' => ?_
      obtain ⟨rc', ms'⟩ := r'
      refine .exists_mul fun hgrown => .exists_mul fun hrc => ?_
      obtain rfl : rc = rc' := hrc
      obtain ⟨hsessions, hroom⟩ := hgrown
      by_cases hcode : rc ≠ 0
      · rw [if_pos hcode, if_pos hcode]
        exact .pure (by simp [storeResult])
      · rw [if_neg hcode, if_neg hcode]
        have hroom : ms'.sessions.length < ms'.capacity := by
          rw [hsessions]
          exact hroom (not_not.mp hcode)
        exact refines_append hroom

theorem refines_update : Refines (ownsStore a st ms * src.owns s) (Raw.memoryStoreUpdate (some a) src)
    (memoryStoreUpdate ms s) fun r r' => storeResult a st r r' * src.owns s := by
  rw [Raw.memoryStoreUpdate, memoryStoreUpdate, owns_id_null]
  simp only [mul_iSup]
  refine .exists_pre fun hnull => ?_
  simp only [hnull, iSup_pos]
  by_cases hid : s.id = none
  · rw [if_pos hid, if_pos hid]
    exact .pure (by simp [storeResult])
  · rw [if_neg hid, if_neg hid, mul_comm]
    refine readId_bind ?_
    rw [mul_comm]
    refine find_bind ?_
    cases memoryStoreFind ms s.id with
    | none => exact .pure (by simp [storeResult])
    | some idx => exact refines_replace idx.isLt

theorem refines_delete {id : Option CStr} : Refines (ownsStore a st ms) (Raw.memoryStoreDelete (some a) id)
    (pure (memoryStoreDelete ms id)) (storeResult a st) := by
  rw [← mul_one (ownsStore a st ms), Raw.memoryStoreDelete, memoryStoreDelete]
  refine find_bind ?_
  cases memoryStoreFind ms id with
  | none => exact .pure (by simp [storeResult])
  | some idx => exact removeAt_bind idx.isLt (.pure (by simp [storeResult]))

theorem refines_deleteByUserId {userId : Option CStr} : Refines (ownsStore a st ms)
    (Raw.memoryStoreDeleteByUserId (some a) userId) (memoryStoreDeleteByUserId ms userId) (storeResult a st) := by
  cases userId with
  | none => exact .pure (by simp [storeResult])
  | some userId =>
    rw [Raw.memoryStoreDeleteByUserId, memoryStoreDeleteByUserId, memoryStoreSweep, bind_assoc,
      ← mul_one (ownsStore a st ms)]
    refine castStore_bind fun p => ?_
    refine (refines_sweep (tests_isOf userId) (Nat.zero_add _)).step fun _ ss => ?_
    rw [pure_bind]
    exact .pure (by simp [storeResult])

/-! ## Looking up -/

/-- An array of sessions a caller was given. -/
def ownsArray (p : Option Nat) (ss : List Session) : Assertion HeapBlock :=
  ⨆ raws : List RawSession, arrayAt p (raws.map some) * each RawSession.owns raws ss

/-- The strings of a session. -/
def Session.texts (s : Session) : List CStr :=
  s.id.toList ++ (s.userId.toList ++ (s.publicKey.toList ++ (s.algorithm.toList ++ s.challenge.toList)))

/-- Strings that no pointer leads to. -/
def leaked (texts : List CStr) : Assertion HeapBlock := (texts.map fun t => ⨆ a, pts a (.text t)).prod

theorem leaked_append (ts ts' : List CStr) : leaked (ts ++ ts') = leaked ts * leaked ts' := by
  simp [leaked]

theorem textAt_le_leaked (p : Option Nat) (t : Option CStr) : textAt p t ≤ leaked t.toList := by
  cases p with
  | none =>
    cases t with
    | none => simp [textAt, leaked]
    | some t => exact bot_le
  | some a =>
    cases t with
    | none => exact bot_le
    | some t =>
      rw [textAt, leaked, Option.toList_some, List.map_singleton, List.prod_singleton]
      exact le_iSup (fun a => pts a (HeapBlock.text t)) a

theorem owns_le_leaked (raw : RawSession) (s : Session) : raw.owns s ≤ leaked s.texts := by
  refine iSup_le fun _ => ?_
  simp only [Session.texts, leaked_append]
  exact mul_le_mul' (textAt_le_leaked ..) (mul_le_mul' (textAt_le_leaked ..) (mul_le_mul' (textAt_le_leaked ..)
    (mul_le_mul' (textAt_le_leaked ..) (textAt_le_leaked ..))))

/-- `memoryStoreGet`, and the strings it loses: those a copy has made when it fails. -/
def memoryStoreGetLeaking (ms : MemoryStore) (id : Option CStr) : Prog Sys ((Option Session × MemoryStore) × List CStr) :=
  match memoryStoreFind ms id with
  | none => pure ((none, ms), [])
  | some idx => do
    let stored := ms.sessions.get idx
    if ← memoryStoreIsExpired stored then return ((none, memoryStoreRemoveAt ms idx), [])
    if !(← malloc sizeofSession) then return ((none, ms), [])
    let (rc, copy) ← sessionCopy stored
    if rc ≠ 0 then return ((none, ms), copy.texts)
    return ((some copy, ms), [])

theorem memoryStoreGetLeaking_fst (ms : MemoryStore) (id : Option CStr) :
    Prod.fst <$> memoryStoreGetLeaking ms id = memoryStoreGet ms id := by
  rw [memoryStoreGetLeaking, memoryStoreGet]
  cases memoryStoreFind ms id with
  | none => rfl
  | some idx =>
    simp only [map_bind]
    congr 1
    funext expired
    cases expired with
    | true => rfl
    | false =>
      simp only [Bool.false_eq_true, if_false, map_bind]
      congr 1
      funext ok
      cases ok with
      | false => rfl
      | true =>
        simp only [Bool.not_true, Bool.false_eq_true, if_false, map_bind]
        congr 1
        funext r
        by_cases hrc : r.1 ≠ 0
        · simp [hrc]
        · simp [hrc]

/-- A copy that was made. -/
def copyAt : Option (Option Nat) → Option Session → Assertion HeapBlock
  | none, none => 1
  | some p, some s => ownsArray p [s]
  | _, _ => ⊥

theorem refines_get {id : Option CStr} : Refines (ownsStore a st ms) (Raw.memoryStoreGet (some a) id)
    (memoryStoreGetLeaking ms id) fun r r' => ownsStore a st r'.1.2 * (copyAt r r'.1.1 * leaked r'.2) := by
  rw [← mul_one (ownsStore a st ms), Raw.memoryStoreGet, memoryStoreGetLeaking]
  refine find_bind ?_
  cases memoryStoreFind ms id with
  | none => exact .pure (by simp [copyAt, leaked])
  | some idx =>
    have hi := idx.isLt
    refine ownsStore_pre fun p raws spare hlen hcapacity => ?_
    have hi' : idx.val < raws.length := by omega
    refine cast_bind ?_
    rw [mul_rotate_right]
    refine elem_bind hi' hi ?_
    refine tests_isExpired.bind fun expired => ?_
    cases expired with
    | true =>
      rw [elem_eq, ← mul_rotate_right]
      refine .pre ?_ (le_ownsStore a st p hcapacity 1)
      exact removeAt_bind hi (.pure (by simp [copyAt, leaked]))
    | false =>
      refine .alloc_bind (fun b => ?_) ?_
      · dsimp only [Option.map_some]
        rw [if_neg (Option.some_ne_none b), Bool.not_true, if_neg Bool.false_ne_true]
        have hclose : raws[idx.val].owns ms.sessions[idx.val] * (arrayAt p (raws.map some ++ spare) *
            (each RawSession.owns (raws.eraseIdx idx.val) (ms.sessions.eraseIdx idx.val) *
              (pts a (.memoryStore ⟨p, ms.count, ms.capacity, st⟩) * 1))) ≤ ownsStore a st ms := by
          rw [elem_eq, ← mul_rotate_right]
          exact (le_ownsStore a st p hcapacity 1).trans (le_of_eq (mul_one _))
        revert hclose
        generalize arrayAt p (raws.map some ++ spare) *
            (each RawSession.owns (raws.eraseIdx idx.val) (ms.sessions.eraseIdx idx.val) *
              (pts a (.memoryStore ⟨p, ms.count, ms.capacity, st⟩) * 1)) = rest
        intro hclose
        show Refines (arrayAt (some b) [none] * _) _ _ _
        refine initAt_bind Nat.one_pos ?_
        rw [← one_mul (raws[idx.val].owns ms.sessions[idx.val] * rest), ← owns_init]
        refine copyInto_bind rfl fun rc raw' d' => ?_
        dsimp only [List.set_cons_zero]
        by_cases hrc : rc ≠ 0
        · rw [if_pos hrc, if_pos hrc]
          refine .free_bind (.pure ?_)
          rw [mul_comm (raw'.owns d')]
          simpa [copyAt] using mul_le_mul' hclose (owns_le_leaked raw' d')
        · rw [if_neg hrc, if_neg hrc]
          refine .pure ?_
          have harray : arrayAt (some b) [some raw'] * raw'.owns d' ≤ ownsArray (some b) [d'] :=
            le_iSup_of_le [raw'] (le_of_eq (by simp [each]))
          rw [← mul_assoc, mul_comm]
          simpa [copyAt, leaked] using mul_le_mul' hclose harray
      · rw [elem_eq, ← mul_rotate_right]
        refine .pre ?_ (le_ownsStore a st p hcapacity 1)
        exact .pure (by simp [copyAt, leaked])

/-! ## Freeing -/

/-- The loop frees what the slots own, and leaves an array as long. -/
theorem freeFrom_bind {f : Unit → OnHeap α} (hslots : ∀ k (hk : k < raws.length), slots[i + k]? = some (some raws[k]))
    (hr : ∀ slots', Refines (arrayAt p slots' * P) (f ()) q Q) :
    Refines (arrayAt p slots * (each RawSession.owns raws ss * P)) (Raw.freeFrom p raws.length i >>= f) q Q := by
  induction raws generalizing i ss slots with
  | nil =>
    cases ss with
    | nil =>
      rw [each, one_mul]
      exact hr slots
    | cons s ss =>
      rw [mul_left_comm]
      exact .bot_mul
  | cons raw raws ih =>
    cases ss with
    | nil =>
      rw [mul_left_comm]
      exact .bot_mul
    | cons s ss =>
      rw [List.length_cons, Raw.freeFrom, bind_assoc, each, mul_assoc]
      refine freeAt_bind (hslots 0 (Nat.zero_lt_succ _)) ?_
      refine ih fun k hk => ?_
      rw [List.getElem?_set_ne (by omega), show i + 1 + k = i + (k + 1) by omega]
      exact hslots (k + 1) (Nat.succ_lt_succ hk)

/-- Behind a null pointer there is nothing. -/
theorem null_pre (hr : raws = [] → Refines P x q Q) :
    Refines (arrayAt none (raws.map some ++ spare) * (each RawSession.owns raws ss * P)) x q Q := by
  refine .exists_mul fun hnil => ?_
  have hraws : raws = [] := by simpa using (List.append_eq_nil_iff.mp hnil).1
  rw [one_mul]
  cases ss with
  | nil =>
    rw [hraws, each, one_mul]
    exact hr hraws
  | cons s ss =>
    rw [hraws]
    exact .bot_mul

theorem freeArray_bind {f : Unit → OnHeap α} (hr : Refines P (f ()) q Q) :
    Refines (arrayAt p (raws.map some ++ spare) * (each RawSession.owns raws ss * P))
      (Raw.freeFrom p raws.length 0 >>= fun _ => free p >>= f) q Q := by
  cases p with
  | none =>
    refine null_pre fun hraws => ?_
    rw [hraws]
    exact hr
  | some b =>
    refine freeFrom_bind (fun k hk => ?_) fun slots' => .free_bind hr
    rw [Nat.zero_add]
    exact getElem?_slots hk

/-- **What a caller was given is freed.** -/
theorem freeSessions_bind {f : Unit → OnHeap α} (hr : Refines P (f ()) q Q) :
    Refines (ownsArray p ss * P) (Raw.memoryStoreFreeSessions p ss.length >>= f) q Q := by
  refine .exists_mul fun raws => ?_
  rw [each_length]
  simp only [mul_iSup, iSup_mul]
  refine .exists_pre fun hlen => ?_
  rw [mul_assoc, ← hlen, ← List.append_nil (raws.map some)]
  cases p with
  | none => exact null_pre fun _ => hr
  | some b =>
    rw [Raw.memoryStoreFreeSessions, if_neg (Option.some_ne_none b), bind_assoc]
    exact freeArray_bind hr

/-! ## The store itself -/

/-- `opendbsc_memory_store_create`, on lists. -/
def memoryStoreNew : Prog Sys (Option MemoryStore) := do
  if !(← malloc sizeofMemoryStore) then return none
  if !(← libraryAlloc) then return none
  if !(← malloc sizeofStore) then return none
  return some .empty

/-- The `OpenDBSC_Store` at `t`, and all it owns. -/
def ownsHandle (t : Nat) (ms : MemoryStore) : Assertion HeapBlock :=
  ⨆ a, pts t (.store (some a)) * ownsStore a (some t) ms

def handleAt : Option Nat → Option MemoryStore → Assertion HeapBlock
  | none, none => 1
  | some t, some ms => ownsHandle t ms
  | _, _ => ⊥

theorem refines_new : Refines 1 Raw.memoryStoreNew memoryStoreNew handleAt := by
  rw [Raw.memoryStoreNew, memoryStoreNew]
  refine .alloc_bind (fun a => ?_) (.pure (by simp [handleAt]))
  rw [if_neg (Option.some_ne_none a), Bool.not_true, if_neg Bool.false_ne_true]
  refine .ask_bind fun ok => ?_
  cases ok with
  | false => exact .free_bind (.pure (by simp [handleAt]))
  | true =>
    refine .alloc_bind (fun t => ?_) ?_
    · rw [if_neg (Option.some_ne_none t), Bool.not_true, if_neg Bool.false_ne_true]
      rw [mul_left_comm]
      refine .store_bind (.pure ?_)
      have hempty : pts a (.memoryStore ⟨none, 0, 0, some t⟩) ≤ ownsStore a (some t) .empty :=
        le_iSup_of_le none (le_iSup_of_le [] (le_iSup_of_le [] (le_iSup_of_le rfl (le_of_eq (by
          simp [arrayAt, each, MemoryStore.empty, MemoryStore.count])))))
      rw [mul_one, mul_comm]
      exact le_iSup_of_le a (mul_le_mul_right hempty _)
    · exact .free_bind (.pure (by simp [handleAt]))

theorem destroy_bind {t : Nat} {f : Unit → OnHeap α} (hr : Refines P (f ()) q Q) :
    Refines (pts t (.store (some a)) * (ownsStore a (some t) ms * P)) (Raw.memoryStoreDestroy (some a) >>= f) q Q := by
  rw [mul_left_comm]
  refine ownsStore_pre fun p raws spare hlen hcapacity => ?_
  have hcount : ms.count = raws.length := hlen.symm
  rw [Raw.memoryStoreDestroy, if_neg (Option.some_ne_none a), bind_assoc, hcount]
  refine cast_bind ?_
  simp only [bind_assoc]
  rw [mul_rotate_right]
  refine freeArray_bind (.store_bind (.free_bind (.free_bind ?_)))
  exact hr

/-! ## A user's sessions -/

section

variable {userId : CStr}

theorem isOf_bind {f : Bool → OnHeap α} (hr : Refines (raw.owns s * P) (f (s.userId == some userId)) q Q) :
    Refines (raw.owns s * P) (Raw.isOf userId raw >>= f) q Q := by
  rw [Raw.isOf, bind_assoc]
  refine readUserId_bind ?_
  rw [pure_bind]
  exact hr

theorem countMatches_bind {n : Nat} {f : Nat → OnHeap α} (hlen : raws.length = ss.length) (hn : i + n = ss.length)
    (hr : Refines (arrayAt p (raws.map some ++ spare) * (each RawSession.owns raws ss * P))
      (f ((ss.drop i).filter fun s => s.userId == some userId).length) q Q) :
    Refines (arrayAt p (raws.map some ++ spare) * (each RawSession.owns raws ss * P))
      (Raw.countMatches p userId n i >>= f) q Q := by
  induction n generalizing i f with
  | zero =>
    rw [List.drop_of_length_le (by omega)] at hr
    exact hr
  | succ n ih =>
    have hi : i < ss.length := by omega
    have hi' : i < raws.length := by omega
    rw [Raw.countMatches, bind_assoc]
    refine elem_bind hi' hi ?_
    rw [bind_assoc]
    refine isOf_bind ?_
    rw [elem_eq, bind_assoc]
    refine ih (by omega) ?_
    rw [pure_bind]
    rw [List.drop_eq_getElem_cons hi, List.filter_cons] at hr
    cases hmatch : ss[i].userId == some userId with
    | true => simpa [hmatch] using hr
    | false => simpa [hmatch] using hr

/-- `n` copies after `cs`, or nothing. -/
def copiesAt (b : Nat) (cs : List Session) (n : Nat) : Bool → Option (List Session) → Assertion HeapBlock
  | true, some copies => ⨆ _ : copies.length = n, ownsArray (some b) (cs ++ copies)
  | false, none => 1
  | _, _ => ⊥

theorem refines_copyMatches {n b : Nat} (left : List (Option RawSession)) (copied : List RawSession) (cs : List Session)
    (hlen : raws.length = ss.length) (hn : i + n = ss.length)
    (hleft : left.length = ((ss.drop i).filter fun s => s.userId == some userId).length) :
    Refines (arrayAt (some b) (copied.map some ++ left) * (each RawSession.owns copied cs *
        (arrayAt p (raws.map some ++ spare) * each RawSession.owns raws ss)))
      (Raw.copyMatches p (some b) userId n i copied.length) (copyAll ((ss.drop i).filter fun s => s.userId == some userId))
      fun ok out => copiesAt b cs left.length ok out * (arrayAt p (raws.map some ++ spare) * each RawSession.owns raws ss) := by
  induction n generalizing i left copied cs with
  | zero =>
    rw [List.drop_of_length_le (by omega)] at hleft ⊢
    have hnil : left = [] := List.eq_nil_of_length_eq_zero hleft
    refine .pure ?_
    rw [hnil, ← mul_assoc, List.append_nil]
    refine mul_le_mul_left ?_ _
    rw [copiesAt, List.append_nil]
    exact le_iSup_of_le rfl (le_iSup_of_le copied le_rfl)
  | succ n ih =>
    have hi : i < ss.length := by omega
    have hi' : i < raws.length := by omega
    rw [Raw.copyMatches, show arrayAt (some b) (copied.map some ++ left) * (each RawSession.owns copied cs *
        (arrayAt p (raws.map some ++ spare) * each RawSession.owns raws ss)) =
      arrayAt p (raws.map some ++ spare) * (each RawSession.owns raws ss *
        (arrayAt (some b) (copied.map some ++ left) * each RawSession.owns copied cs)) by ac_rfl]
    refine elem_bind hi' hi (isOf_bind ?_)
    rw [List.drop_eq_getElem_cons hi, List.filter_cons] at hleft ⊢
    cases hmatch : ss[i].userId == some userId with
    | false =>
      rw [hmatch] at hleft
      rw [if_neg Bool.false_ne_true, if_neg Bool.false_ne_true, elem_eq, show arrayAt p (raws.map some ++ spare) *
          (each RawSession.owns raws ss * (arrayAt (some b) (copied.map some ++ left) * each RawSession.owns copied cs)) =
        arrayAt (some b) (copied.map some ++ left) * (each RawSession.owns copied cs *
          (arrayAt p (raws.map some ++ spare) * each RawSession.owns raws ss)) by ac_rfl]
      exact ih left copied cs (by omega) (by simpa using hleft)
    | true =>
      rw [hmatch] at hleft
      cases left with
      | nil => simp at hleft
      | cons slot left =>
        rw [if_pos rfl, if_pos rfl, copyAll]
        have hclose : raws[i].owns ss[i] * (arrayAt p (raws.map some ++ spare) *
            each RawSession.owns (raws.eraseIdx i) (ss.eraseIdx i)) =
          arrayAt p (raws.map some ++ spare) * each RawSession.owns raws ss := by rw [each_get hi' hi, mul_left_comm]
        rw [← hclose] at ih ⊢
        rw [show raws[i].owns ss[i] * (arrayAt p (raws.map some ++ spare) *
            (each RawSession.owns (raws.eraseIdx i) (ss.eraseIdx i) *
              (arrayAt (some b) (copied.map some ++ slot :: left) * each RawSession.owns copied cs))) =
          arrayAt (some b) (copied.map some ++ slot :: left) * (raws[i].owns ss[i] * (each RawSession.owns copied cs *
            (arrayAt p (raws.map some ++ spare) * each RawSession.owns (raws.eraseIdx i) (ss.eraseIdx i)))) by ac_rfl]
        generalize arrayAt p (raws.map some ++ spare) * each RawSession.owns (raws.eraseIdx i) (ss.eraseIdx i) = rest at ih ⊢
        refine initAt_bind (by simp) ?_
        rw [slots_set_next, ← one_mul (raws[i].owns ss[i] * _), ← owns_init]
        refine copyInto_bind (by simp) fun rc raw' d' => ?_
        rw [slots_set_next]
        dsimp only
        by_cases hrc : rc ≠ 0
        · rw [if_pos hrc, if_pos hrc]
          refine freeAt_bind (by simp) ?_
          rw [slots_set_next, mul_left_comm (raws[i].owns ss[i])]
          refine freeArray_bind ?_
          exact .pure (by simp [copiesAt])
        · rw [if_neg hrc, if_neg hrc]
          have hleft' : left.length = ((ss.drop (i + 1)).filter fun s => s.userId == some userId).length := by
            simpa using hleft
          have hloop : Refines (arrayAt (some b) ((copied ++ [raw']).map some ++ left) *
              (each RawSession.owns (copied ++ [raw']) (cs ++ [d']) * (raws[i].owns ss[i] * rest)))
              (Raw.copyMatches p (some b) userId n (i + 1) (copied ++ [raw']).length)
              (copyAll ((ss.drop (i + 1)).filter fun s => s.userId == some userId))
              fun ok out => copiesAt b (cs ++ [d']) left.length ok out * (raws[i].owns ss[i] * rest) :=
            ih left (copied ++ [raw']) (cs ++ [d']) (by omega) hleft'
          rw [each_length copied cs]
          simp only [iSup_mul, mul_iSup]
          refine .exists_pre fun hcopied => ?_
          have hparts : arrayAt (some b) (copied.map some ++ some raw' :: left) * (raw'.owns d' * (raws[i].owns ss[i] *
              (each RawSession.owns copied cs * rest))) =
            arrayAt (some b) ((copied ++ [raw']).map some ++ left) *
              (each RawSession.owns (copied ++ [raw']) (cs ++ [d']) * (raws[i].owns ss[i] * rest)) := by
            rw [each_concat hcopied, List.map_append, List.append_assoc]
            simp only [List.map_cons, List.map_nil, List.cons_append, List.nil_append]
            ac_rfl
          rw [hparts]
          rw [List.length_append, List.length_singleton] at hloop
          rw [← bind_pure (Raw.copyMatches p (some b) userId n (i + 1) (copied.length + 1))]
          refine hloop.bind fun ok out => ?_
          cases ok with
          | true =>
            cases out with
            | none => exact .bot_mul
            | some copies => exact .pure (by simp [copiesAt])
          | false =>
            cases out with
            | none => exact .pure (by simp [copiesAt])
            | some copies => exact .bot_mul

/-- What a caller is given for a user: an array of that many sessions. -/
def foundAt : Option (Option Nat × Nat) → Option (List Session) → Assertion HeapBlock
  | none, none => 1
  | some (p, n), some ss => ⨆ _ : n = ss.length, ownsArray p ss
  | _, _ => ⊥

end

theorem refines_getByUserId {userId : Option CStr} : Refines (ownsStore a st ms)
    (Raw.memoryStoreGetByUserId (some a) userId) (memoryStoreGetByUserId ms userId) fun r r' =>
      ownsStore a st r'.2 * foundAt r r'.1 := by
  cases userId with
  | none => exact .pure (by simp [foundAt])
  | some userId =>
    simp only [Raw.memoryStoreGetByUserId, Raw.memoryStoreExpire, memoryStoreGetByUserId, memoryStoreExpire,
      memoryStoreSweep, bind_assoc, pure_bind]
    rw [← mul_one (ownsStore a st ms)]
    refine castStore_bind fun p => ?_
    refine (refines_sweep tests_isExpired (Nat.zero_add _)).step fun _ ss => ?_
    refine ownsStore_pre fun p raws spare hlen hcapacity => ?_
    refine cast_bind ?_
    rw [mul_rotate_right]
    refine countMatches_bind hlen (Nat.zero_add _) ?_
    rw [← mul_rotate_right, List.drop_zero]
    have hclose := le_ownsStore a st p hcapacity 1
    dsimp only at hclose ⊢
    by_cases hnone : (ss.filter fun s => s.userId == some userId).length = 0
    · rw [if_pos hnone, if_pos hnone]
      refine .pure (hclose.trans ?_)
      have hempty : (1 : Assertion HeapBlock) ≤ ownsArray none [] := le_iSup_of_le [] (by simp [arrayAt, each])
      simpa [foundAt] using mul_le_mul_right hempty _
    · rw [if_neg hnone, if_neg hnone]
      refine .alloc_bind (fun b => ?_) (.pure (by simpa [foundAt] using hclose))
      rw [if_neg (Option.some_ne_none b)]
      generalize hfound : (ss.filter fun s => s.userId == some userId) = found
      have hlength : (List.replicate found.length (none : Option RawSession)).length = found.length := List.length_replicate
      have hcopies : Refines (arrayAt (some b) (([] : List RawSession).map some ++ List.replicate found.length none) *
          (each RawSession.owns [] [] * (arrayAt p (raws.map some ++ spare) * each RawSession.owns raws ss)))
          (Raw.copyMatches p (some b) userId ss.length 0 0) (copyAll found)
          fun ok out => copiesAt b [] found.length ok out *
            (arrayAt p (raws.map some ++ spare) * each RawSession.owns raws ss) := by
        refine .post ?_ fun ok out => le_of_eq (by rw [← hlength])
        rw [← hfound] at hlength ⊢
        exact refines_copyMatches _ [] [] hlen (Nat.zero_add _) hlength
      have hparts : pts b (.sessions (List.replicate found.length none)) *
          (pts a (.memoryStore ⟨p, ss.length, ms.capacity, st⟩) * (arrayAt p (raws.map some ++ spare) *
            (each RawSession.owns raws ss * 1))) =
        arrayAt (some b) (([] : List RawSession).map some ++ List.replicate found.length none) *
          (each RawSession.owns [] [] * (arrayAt p (raws.map some ++ spare) * each RawSession.owns raws ss)) *
            pts a (.memoryStore ⟨p, ss.length, ms.capacity, st⟩) := by
        simp only [arrayAt, each, List.map_nil, List.nil_append, one_mul, mul_one]
        ac_rfl
      have hclose' : arrayAt p (raws.map some ++ spare) * each RawSession.owns raws ss *
          pts a (.memoryStore ⟨p, ss.length, ms.capacity, st⟩) ≤ ownsStore a st { ms with sessions := ss } := by
        refine le_trans (le_of_eq ?_) (hclose.trans (le_of_eq (mul_one _)))
        rw [mul_one, mul_comm]
        rfl
      show Refines (pts b (.sessions (List.replicate found.length none)) *
          (pts a (.memoryStore ⟨p, ss.length, ms.capacity, st⟩) * (arrayAt p (raws.map some ++ spare) *
            (each RawSession.owns raws ss * 1)))) _ _ _
      rw [hparts]
      refine hcopies.step fun ok out => ?_
      rw [mul_assoc, mul_comm]
      refine .pre ?_ (mul_le_mul_left hclose' _)
      cases ok with
      | true =>
        cases out with
        | none =>
          rw [mul_comm]
          exact .bot_mul
        | some copies =>
          simp only [copiesAt, List.nil_append, mul_iSup]
          exact .exists_pre fun hcount => .pure (by simp [foundAt, hcount])
      | false =>
        cases out with
        | none => exact .pure le_rfl
        | some copies =>
          rw [mul_comm]
          exact .bot_mul

end

end OpenDbsc
