/-
Whatever a caller does, on the heap.

Played from the empty heap, any caller does on the heap as it does on values
(`heap_refines_values`), whatever allocation fails. So a call is undefined
where it is on values, and that is where it names a store, an array or a
session that is not there (`heap_defined_iff`).
-/
import OpenDbsc.Allocations
import OpenDbsc.HeapCaller
import OpenDbsc.ManagerTotal

namespace OpenDbsc

open Effects Heaps Prog Assertion

def RawCaller.empty : RawCaller := ⟨[], []⟩

def Caller.empty : Caller := ⟨[], [], []⟩

/-- Nothing is owned yet. -/
theorem owns_empty : (Heap.empty : Heap HeapBlock).blocks ∈ RawCaller.empty.owns .empty := by
  have hone : RawCaller.empty.owns .empty = 1 := by
    simp [RawCaller.owns, RawCaller.empty, Caller.empty, each, leaked]
  rw [hone]
  exact mem_one.mpr rfl

/-- The heap is what the caller owns. -/
def OnHeapAs (st : RawCaller × Heap HeapBlock) (v : Caller) : Prop := st.2.blocks ∈ st.1.owns v

theorem alike_caller (o : CallerOp) (st : RawCaller × Heap HeapBlock) (v : Caller) (h : OnHeapAs st v) :
    Alike (fun c c' => c.1 = c'.1 ∧ OnHeapAs c.2 c'.2) (callerOnHeap o st) (caller o v) := by
  rw [callerOnHeap, ← bind_pure_comp, ← bind_pure (caller o v)]
  refine ((refines_caller o st.1 v).alike h).bind fun r r' hr => alike_pure ?_
  obtain ⟨hx, hr⟩ := mem_iSup.mp hr
  exact ⟨hx, hr⟩

theorem calls_any {S T : Sig} {α : Type} (p : Prog (S.sum T) α) : Calls (fun _ => True) (fun _ _ => True) (fun _ => True) p := by
  induction p with
  | ret a => trivial
  | op o k ih =>
    cases o with
    | inl o => exact ih
    | inr o => exact ⟨trivial, fun x _ => ih x⟩

/-- **A caller's run on the heap is its run on values**: whatever the caller and
whatever allocation fails, the same things happen and the same is answered, and
the blocks on the heap are those of the values. -/
theorem heap_refines_values {α : Type} (env : Nat → (o : Sys.Op) → Option (Sys.Ans o)) (p : Prog (Sys.sum CallerSig) α) :
    Option.Rel (fun r r' => r.1 = r'.1 ∧ r.2.1 = r'.2.1 ∧ OnHeapAs r.2.2 r'.2.2)
      (play env callerOnHeap 0 p (.empty, .empty)) (play env caller 0 p .empty) := by
  refine play_alike (fun o st v _ h => (alike_caller o st v h).mono fun c c' hc => ⟨hc.1, trivial, hc.2⟩) env
    (calls_any p) ?_ 0
  exact owns_empty

/-! ## What is undefined -/

def Caller.HasStore (v : Caller) (n : Nat) : Prop := ∃ ms, v.stores[n]? = some (some ms)

def Caller.HasArray (v : Caller) (k : Nat) (onStack : Bool) : Prop := ∃ ss, v.arrays[k]? = some (some ⟨ss, onStack⟩)

def Caller.HasSession (v : Caller) (slot : Slot) : Prop :=
  ∃ a, v.arrays[slot.array]? = some (some a) ∧ slot.i < a.sessions.length

/-- The operation names what is there. -/
def Caller.Names (v : Caller) : CallerOp → Prop
  | .newStore => True
  | .create n slot => v.HasStore n ∧ v.HasSession slot
  | .get n _ => v.HasStore n
  | .update n slot => v.HasStore n ∧ v.HasSession slot
  | .delete n _ => v.HasStore n
  | .getByUserId n _ => v.HasStore n
  | .deleteByUserId n _ => v.HasStore n
  | .freeSessions n k => v.HasStore n ∧ v.HasArray k false
  | .destroy n => v.HasStore n
  | .declare => True
  | .leave k => v.HasArray k true
  | .sessionFree slot => v.HasSession slot
  | .setText slot _ _ => v.HasSession slot
  | .setState slot _ => v.HasSession slot
  | .setExpiresAt slot _ => v.HasSession slot
  | .setCreatedAt slot _ => v.HasSession slot
  | .read slot => v.HasSession slot

theorem not_answerable_undefined {α : Type} : ¬ (undefinedBehavior : Prog Sys α).Answerable :=
  fun h => h.1.elim fun x => nomatch x

section

variable {α : Type} {v : Caller} {n k : Nat} {slot : Slot} {ms : MemoryStore} {s : Session}

theorem answerable_onStore {call : MemoryStore → Prog Sys (α × MemoryStore)} (hcall : ∀ ms, (call ms).Answerable) :
    (v.onStore n call).Answerable ↔ v.HasStore n := by
  rw [Caller.onStore, Caller.HasStore]
  rcases v.stores[n]? with - | - | ms
  · simp [not_answerable_undefined]
  · simp [not_answerable_undefined]
  · exact iff_of_true ((hcall ms).bind fun r => answerable_pure _) ⟨ms, rfl⟩

theorem answerable_onArray {f : SessionArray → Prog Sys α} :
    (v.onArray k f).Answerable ↔ ∃ a, v.arrays[k]? = some (some a) ∧ (f a).Answerable := by
  rw [Caller.onArray]
  rcases v.arrays[k]? with - | - | a
  · simp [not_answerable_undefined]
  · simp [not_answerable_undefined]
  · simp

theorem answerable_onSession {f : Session → Prog Sys (α × Session)} (hf : ∀ s, (f s).Answerable) :
    (v.onSession slot f).Answerable ↔ v.HasSession slot := by
  rw [Caller.onSession, answerable_onArray, Caller.HasSession]
  refine exists_congr fun a => and_congr Iff.rfl ?_
  by_cases hi : slot.i < a.sessions.length
  · simp only [List.getElem?_eq_getElem hi]
    exact iff_of_true ((hf _).bind fun r => answerable_pure _) hi
  · simp [hi, not_answerable_undefined]

theorem answerable_withSession {call : MemoryStore → Session → Prog Sys (α × MemoryStore)}
    (hcall : ∀ ms s, (call ms s).Answerable) : (v.withSession n slot call).Answerable ↔ v.HasStore n ∧ v.HasSession slot := by
  rw [Caller.withSession, answerable_onArray, Caller.HasSession, ← exists_and_left]
  refine exists_congr fun a => ?_
  by_cases hi : slot.i < a.sessions.length
  · simp [hi, answerable_onStore (hcall · _), and_comm]
  · simp [hi, not_answerable_undefined]

theorem onlyAllocates_sessionCopy (s : Session) : OnlyAllocates (sessionCopy s) := by
  refine onlyAllocates_setField.bind fun r => onlyAllocates_guard ?_
  refine onlyAllocates_setField.bind fun r => onlyAllocates_guard ?_
  refine onlyAllocates_setField.bind fun r => onlyAllocates_guard ?_
  refine onlyAllocates_setField.bind fun r => onlyAllocates_guard ?_
  refine onlyAllocates_setField.bind fun r => onlyAllocates_guard ?_
  exact onlyAllocates_pure _

theorem onlyAllocates_setText (field : SessionText) (value : Option CStr) (s : Session) :
    OnlyAllocates (Caller.setText field value s) := by
  cases field with
  | id =>
    show OnlyAllocates (setField (fun id => { s with id }) s.id value)
    exact onlyAllocates_setField
  | userId =>
    show OnlyAllocates (setField (fun userId => { s with userId }) s.userId value)
    exact onlyAllocates_setField
  | publicKey =>
    show OnlyAllocates (setField (fun publicKey => { s with publicKey }) s.publicKey value)
    exact onlyAllocates_setField
  | algorithm =>
    show OnlyAllocates (setField (fun algorithm => { s with algorithm }) s.algorithm value)
    exact onlyAllocates_setField
  | challenge =>
    show OnlyAllocates (setField (fun challenge => { s with challenge }) s.challenge value)
    exact onlyAllocates_setField

theorem answerable_sessionCopy (s : Session) : (sessionCopy s).Answerable := (onlyAllocates_sessionCopy s).answerable

theorem answerable_memoryStoreReplace (i : Nat) : (memoryStoreReplace ms i s).Answerable := by
  refine (answerable_sessionCopy s).bind fun r => ?_
  dsimp only
  split
  · exact answerable_pure _
  · exact answerable_pure _

theorem answerable_memoryStoreGrow : (memoryStoreGrow ms).Answerable := by
  unfold memoryStoreGrow
  split
  · exact answerable_pure _
  · refine (onlyAllocates_malloc _).answerable.bind fun ok => ?_
    cases ok <;> exact answerable_pure _

theorem answerable_memoryStoreCreate : (memoryStoreCreate ms s).Answerable := by
  unfold memoryStoreCreate
  split
  · exact answerable_pure _
  · split
    · exact answerable_memoryStoreReplace _
    · refine answerable_memoryStoreGrow.bind fun r => ?_
      obtain ⟨rc, ms'⟩ := r
      dsimp only
      split
      · exact answerable_pure _
      · refine (answerable_sessionCopy s).bind fun r => ?_
        split
        · exact answerable_pure _
        · exact answerable_pure _

theorem answerable_memoryStoreGetLeaking (id : Option CStr) : (memoryStoreGetLeaking ms id).Answerable := by
  unfold memoryStoreGetLeaking
  split
  · exact answerable_pure _
  · refine (answerable_memoryStoreIsExpired _).bind fun expired => ?_
    cases expired with
    | true => exact answerable_pure _
    | false =>
      refine (onlyAllocates_malloc _).answerable.bind fun ok => ?_
      cases ok with
      | false => exact answerable_pure _
      | true =>
        refine (answerable_sessionCopy _).bind fun r => ?_
        dsimp only
        split
        · exact answerable_pure _
        · exact answerable_pure _

theorem answerable_memoryStoreUpdate : (memoryStoreUpdate ms s).Answerable := by
  unfold memoryStoreUpdate
  split
  · exact answerable_pure _
  · split
    · exact answerable_pure _
    · exact answerable_memoryStoreReplace _

theorem answerable_copyAll (ss : List Session) : (copyAll ss).Answerable := by
  induction ss with
  | nil => exact answerable_pure _
  | cons s rest ih =>
    refine (answerable_sessionCopy s).bind fun r => ?_
    dsimp only
    split
    · exact answerable_pure _
    · refine ih.bind fun out => ?_
      cases out <;> exact answerable_pure _

theorem answerable_memoryStoreSweep {test : Session → Prog Sys Bool} (htest : ∀ s, (test s).Answerable) :
    (memoryStoreSweep test ms).Answerable :=
  (answerable_sweep htest _ _).bind fun _ => answerable_pure _

theorem answerable_memoryStoreGetByUserId (userId : Option CStr) : (memoryStoreGetByUserId ms userId).Answerable := by
  cases userId with
  | none => exact answerable_pure _
  | some userId =>
    refine (answerable_memoryStoreSweep answerable_memoryStoreIsExpired).bind fun ms => ?_
    dsimp only
    split
    · exact answerable_pure _
    · refine (onlyAllocates_malloc _).answerable.bind fun ok => ?_
      cases ok with
      | false => exact answerable_pure _
      | true => exact (answerable_copyAll _).bind fun out => answerable_pure _

theorem answerable_memoryStoreDeleteByUserId (userId : Option CStr) : (memoryStoreDeleteByUserId ms userId).Answerable := by
  cases userId with
  | none => exact answerable_pure _
  | some userId =>
    exact (answerable_memoryStoreSweep fun s => answerable_pure _).bind fun ms => answerable_pure _

theorem answerable_memoryStoreNew : memoryStoreNew.Answerable := by
  refine (onlyAllocates_malloc _).answerable.bind fun ok => ?_
  cases ok with
  | false => exact answerable_pure _
  | true =>
    refine onlyAllocates_libraryAlloc.answerable.bind fun ok => ?_
    cases ok with
    | false => exact answerable_pure _
    | true =>
      refine (onlyAllocates_malloc _).answerable.bind fun ok => ?_
      cases ok <;> exact answerable_pure _

end

theorem answerable_caller (o : CallerOp) (v : Caller) : (caller o v).Answerable ↔ v.Names o := by
  cases o with
  | newStore =>
    refine iff_of_true (answerable_memoryStoreNew.bind fun ms => ?_) trivial
    cases ms <;> exact answerable_pure _
  | create n slot => exact answerable_withSession fun ms s => answerable_memoryStoreCreate
  | get n id =>
    refine (answerable_bind fun r => ?_).trans (answerable_onStore fun ms => ?_)
    · obtain ⟨⟨out, lost⟩, v'⟩ := r
      cases out <;> exact answerable_pure _
    · exact (answerable_memoryStoreGetLeaking id).bind fun r => answerable_pure _
  | update n slot => exact answerable_withSession fun ms s => answerable_memoryStoreUpdate
  | delete n id => exact answerable_onStore fun ms => answerable_pure _
  | getByUserId n userId =>
    refine (answerable_bind fun r => ?_).trans (answerable_onStore fun ms => answerable_memoryStoreGetByUserId userId)
    obtain ⟨out, v'⟩ := r
    cases out <;> exact answerable_pure _
  | deleteByUserId n userId => exact answerable_onStore fun ms => answerable_memoryStoreDeleteByUserId userId
  | freeSessions n k =>
    refine (answerable_bind fun r => answerable_pure _).trans (answerable_onArray.trans ?_)
    have hcall : (v.onStore n fun ms => pure ((), ms)).Answerable ↔ v.HasStore n :=
      answerable_onStore fun ms => answerable_pure _
    constructor
    · intro h
      obtain ⟨⟨ss, onStack⟩, ha, hans⟩ := h
      cases onStack with
      | true => exact absurd hans not_answerable_undefined
      | false => exact ⟨hcall.mp hans, ss, ha⟩
    · intro h
      obtain ⟨hstore, ss, ha⟩ := h
      exact ⟨⟨ss, false⟩, ha, hcall.mpr hstore⟩
  | destroy n => exact (answerable_bind fun r => answerable_pure _).trans (answerable_onStore fun ms => answerable_pure _)
  | declare => exact iff_of_true (answerable_pure _) trivial
  | leave k =>
    refine (answerable_bind fun r => answerable_pure _).trans (answerable_onArray.trans ?_)
    constructor
    · intro h
      obtain ⟨⟨ss, onStack⟩, ha, hans⟩ := h
      cases onStack with
      | true => exact ⟨ss, ha⟩
      | false => exact absurd hans not_answerable_undefined
    · intro h
      obtain ⟨ss, ha⟩ := h
      exact ⟨⟨ss, true⟩, ha, answerable_pure _⟩
  | sessionFree slot => exact answerable_onSession fun s => answerable_pure _
  | setText slot field value =>
    exact answerable_onSession fun s => (onlyAllocates_setText field value s).answerable
  | setState slot state => exact answerable_onSession fun s => answerable_pure _
  | setExpiresAt slot t => exact answerable_onSession fun s => answerable_pure _
  | setCreatedAt slot t => exact answerable_onSession fun s => answerable_pure _
  | read slot => exact answerable_onSession fun s => answerable_pure _

/-- **Only a name that names nothing is undefined**: of whatever a caller did, from
the empty heap, there is a run on values with the same calls, and the next
operation on the heap can be undefined only where it names a store, an array or
a session that is not there. -/
theorem heap_defined_iff {h : List (Transition (RawCaller × Heap HeapBlock) (Call Sys CallerSig))}
    {st : RawCaller × Heap HeapBlock} (hrun : Run callerOnHeap.comp.Step (.empty, .empty) h st) :
    ∃ h' v, Run caller.comp.Step .empty h' v ∧ h'.map (·.label) = h.map (·.label) ∧
      ∀ o, (callerOnHeap o st).Answerable ↔ v.Names o := by
  have hempty : OnHeapAs (.empty, .empty) .empty := owns_empty
  obtain ⟨h', v, hrun', hlabels, hv⟩ := run_alike alike_caller hempty hrun
  refine ⟨h', v, hrun', hlabels, fun o => ?_⟩
  exact (alike_caller o st v hv).answerable.trans (answerable_caller o v)

/-- The third allocation of the sixth call fails. -/
def failsOnce (n i : Nat) : (o : Sys.Op) → Option (Sys.Ans o)
  | .malloc _ => some (decide (¬ (n = 5 ∧ i = 2)))
  | o => allocOk o

/-- Whether a lookup by id found something. -/
def lookupFound : Call Sys CallerSig → Option Bool
  | ⟨.get .., _, found⟩ => some found.isSome
  | _ => none

/-- A session is stored and looked up twice, the first time without memory for
all of its copy, and the store is destroyed. -/
theorem heap_defined_iff_destroyed :
    ∃ (h : List (Transition (RawCaller × Heap HeapBlock) (Call Sys CallerSig))) (st : RawCaller × Heap HeapBlock),
      (h.map fun t => lookupFound t.label) = [none, none, none, none, none, some false, some true, none] ∧
      st.1.stores = [none] ∧ st.1.arrays.length = 2 ∧
      ∃ h' v, Run caller.comp.Step .empty h' v ∧ h'.map (·.label) = h.map (·.label) ∧
        ∀ o, (callerOnHeap o st).Answerable ↔ v.Names o := by
  have hplay : (playInTurn failsOnce callerOnHeap
      [.newStore, .declare, .setText ⟨0, 0⟩ .id (some "a".toList), .setText ⟨0, 0⟩ .userId (some "b".toList),
        .create 0 ⟨0, 0⟩, .get 0 (some "a".toList), .get 0 (some "a".toList), .destroy 0] 0 (.empty, .empty)).map
        (fun r => (r.1.map fun t => lookupFound t.label, r.2.1.stores, r.2.1.arrays.length)) =
      some ([none, none, none, none, none, some false, some true, none], [none], 2) := by
    decide +kernel
  obtain ⟨⟨h, st⟩, hplay, hr⟩ := Option.map_eq_some_iff.mp hplay
  simp only [Prod.mk.injEq] at hr
  obtain ⟨hfound, hstores, harrays⟩ := hr
  exact ⟨h, st, hfound, hstores, harrays, heap_defined_iff (run_playInTurn hplay)⟩

end OpenDbsc
