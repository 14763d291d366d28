/-
What a caller of `session.c` and `store/memory.c` does on the heap.

A caller has stores, and arrays of sessions: those a store gave it, and
variables of type `OpenDBSC_Session`, which are arrays of one on the stack. It
names them by the order it got them in. What it has given back, or has left the
scope of, is not there any more: using it is undefined, and so is a session
beyond the end of its array.
-/
import OpenDbsc.HeapMemoryFacts

namespace OpenDbsc

open Effects Heaps Prog Assertion

inductive SessionText where
  | id
  | userId
  | publicKey
  | algorithm
  | challenge
  deriving DecidableEq

/-- Session `i` of an array. -/
structure Slot where
  array : Nat
  i : Nat
  deriving DecidableEq

inductive CallerOp where
  /-- `opendbsc_memory_store_create`. -/
  | newStore
  | create (store : Nat) (session : Slot)
  | get (store : Nat) (id : Option CStr)
  | update (store : Nat) (session : Slot)
  | delete (store : Nat) (id : Option CStr)
  | getByUserId (store : Nat) (userId : Option CStr)
  | deleteByUserId (store : Nat) (userId : Option CStr)
  | freeSessions (store array : Nat)
  | destroy (store : Nat)
  /-- `OpenDBSC_Session s; opendbsc_session_init(&s)`. -/
  | declare
  /-- `opendbsc_session_free(&s)` at the end of its scope. -/
  | leave (array : Nat)
  | sessionFree (session : Slot)
  | setText (session : Slot) (field : SessionText) (value : Option CStr)
  | setState (session : Slot) (state : SessionState)
  | setExpiresAt (session : Slot) (expiresAt : Int)
  | setCreatedAt (session : Slot) (createdAt : Int)
  /-- All fields of a session. -/
  | read (session : Slot)

/-- A code, what the caller can name from now on, or what was read. -/
@[reducible] def CallerOp.Ans : CallerOp → Type
  | .newStore => Option Nat
  | .create .. => Int
  | .get .. => Option Nat
  | .update .. => Int
  | .delete .. => Int
  | .getByUserId .. => Option (Nat × Nat)
  | .deleteByUserId .. => Int
  | .freeSessions .. => Unit
  | .destroy _ => Unit
  | .declare => Nat
  | .leave _ => Unit
  | .sessionFree _ => Unit
  | .setText .. => Int
  | .setState .. => Unit
  | .setExpiresAt .. => Unit
  | .setCreatedAt .. => Unit
  | .read _ => Session

abbrev CallerSig : Sig := ⟨CallerOp, CallerOp.Ans⟩

/-! ## On the heap -/

/-- What the caller knows of an array. -/
structure RawArray where
  sessions : Option Nat
  count : Nat
  onStack : Bool
  deriving DecidableEq

structure RawCaller where
  stores : List (Option Nat)
  arrays : List (Option RawArray)
  deriving DecidableEq

namespace Raw

variable {α : Type}

/-- A call through the store's pointers, which pass on its `impl`. -/
def onStore (c : RawCaller) (n : Nat) (call : Option Nat → OnHeap α) : OnHeap α :=
  match c.stores[n]? with
  | some (some st) => do
    match ← load (some st) with
    | .store impl => call impl
    | _ => undefined
  | _ => undefined

def onArray (c : RawCaller) (k : Nat) (f : RawArray → OnHeap α) : OnHeap α :=
  match c.arrays[k]? with
  | some (some a) => f a
  | _ => undefined

/-- A function that is passed the address of a session. -/
def onSession (c : RawCaller) (slot : Slot) (f : RawSession → OnHeap (α × RawSession)) : OnHeap α :=
  onArray c slot.array fun a => do
    let (x, s) ← f (← sessionAt a.sessions slot.i)
    setSessionAt a.sessions slot.i s
    pure x

/-- A store's function that is passed the address of a session, to read it. -/
def withSession (c : RawCaller) (n : Nat) (slot : Slot) (call : Option Nat → RawSession → OnHeap α) : OnHeap α :=
  onArray c slot.array fun a => do
    let s ← sessionAt a.sessions slot.i
    onStore c n fun impl => call impl s

def setText (field : SessionText) (value : Option CStr) (s : RawSession) : OnHeap (Int × RawSession) :=
  match field with
  | .id => sessionSetId s value
  | .userId => sessionSetUserId s value
  | .publicKey => sessionSetPublicKey s value
  | .algorithm => sessionSetAlgorithm s value
  | .challenge => sessionSetChallenge s value

def readSession (s : RawSession) : OnHeap Session := do
  return {
    id := ← charsOrNull s.id
    userId := ← charsOrNull s.userId
    state := s.state
    publicKey := ← charsOrNull s.publicKey
    algorithm := ← charsOrNull s.algorithm
    challenge := ← charsOrNull s.challenge
    expiresAt := s.expiresAt
    hasExpires := s.hasExpires
    createdAt := s.createdAt }

/-- One more array that can be named. -/
def keep (c : RawCaller) (a : RawArray) : Nat × RawCaller := (c.arrays.length, { c with arrays := c.arrays ++ [some a] })

/-- Each operation, as the library's functions do it. -/
def caller : (o : CallerOp) → RawCaller → OnHeap (o.Ans × RawCaller)
  | .newStore, c => do
    match ← memoryStoreNew with
    | none => pure (none, c)
    | some st => pure (some c.stores.length, { c with stores := c.stores ++ [some st] })
  | .create n slot, c => do return (← withSession c n slot memoryStoreCreate, c)
  | .get n id, c => do
    match ← onStore c n fun impl => memoryStoreGet impl id with
    | none => pure (none, c)
    | some p =>
      let (k, c) := keep c ⟨p, 1, false⟩
      pure (some k, c)
  | .update n slot, c => do return (← withSession c n slot memoryStoreUpdate, c)
  | .delete n id, c => do return (← onStore c n fun impl => memoryStoreDelete impl id, c)
  | .getByUserId n userId, c => do
    match ← onStore c n fun impl => memoryStoreGetByUserId impl userId with
    | none => pure (none, c)
    | some (p, count) =>
      let (k, c) := keep c ⟨p, count, false⟩
      pure (some (k, count), c)
  | .deleteByUserId n userId, c => do return (← onStore c n fun impl => memoryStoreDeleteByUserId impl userId, c)
  | .freeSessions n k, c => do
    onArray c k fun a =>
      if a.onStack then undefined
      else onStore c n fun _ => memoryStoreFreeSessions a.sessions a.count
    return ((), { c with arrays := c.arrays.set k none })
  | .destroy n, c => do
    onStore c n memoryStoreDestroy
    return ((), { c with stores := c.stores.set n none })
  | .declare, c => do
    let p ← place (.sessions [some sessionInit])
    return keep c ⟨p, 1, true⟩
  | .leave k, c => do
    onArray c k fun a =>
      if a.onStack then do
        freeAt a.sessions 0
        free a.sessions
      else undefined
    return ((), { c with arrays := c.arrays.set k none })
  | .sessionFree slot, c => do return (← onSession c slot fun s => do return ((), ← sessionFree s), c)
  | .setText slot field value, c => do return (← onSession c slot (setText field value), c)
  | .setState slot state, c => do return (← onSession c slot fun s => pure ((), sessionSetState s state), c)
  | .setExpiresAt slot t, c => do return (← onSession c slot fun s => pure ((), sessionSetExpiresAt s t), c)
  | .setCreatedAt slot t, c => do return (← onSession c slot fun s => pure ((), sessionSetCreatedAt s t), c)
  | .read slot, c => do return (← onSession c slot fun s => do return (← readSession s, s), c)

end Raw

/-- The caller's operations on its heap. -/
def callerOnHeap : Impl Sys CallerSig (RawCaller × Heap HeapBlock) :=
  fun o st => (fun r => (r.1.1, r.1.2, r.2)) <$> Raw.caller o st.1 st.2

/-! ## On values -/

structure SessionArray where
  sessions : List Session
  onStack : Bool
  deriving DecidableEq

structure Caller where
  stores : List (Option MemoryStore)
  arrays : List (Option SessionArray)
  /-- Strings that nothing will free. -/
  lost : List CStr
  deriving DecidableEq

namespace Caller

variable {α : Type}

def onStore (c : Caller) (n : Nat) (call : MemoryStore → Prog Sys (α × MemoryStore)) : Prog Sys (α × Caller) :=
  match c.stores[n]? with
  | some (some ms) => do
    let (x, ms) ← call ms
    return (x, { c with stores := c.stores.set n (some ms) })
  | _ => undefinedBehavior

def onArray (c : Caller) (k : Nat) (f : SessionArray → Prog Sys α) : Prog Sys α :=
  match c.arrays[k]? with
  | some (some a) => f a
  | _ => undefinedBehavior

def onSession (c : Caller) (slot : Slot) (f : Session → Prog Sys (α × Session)) : Prog Sys (α × Caller) :=
  onArray c slot.array fun a =>
    match a.sessions[slot.i]? with
    | none => undefinedBehavior
    | some s => do
      let (x, s) ← f s
      return (x, { c with arrays := c.arrays.set slot.array (some { a with sessions := a.sessions.set slot.i s }) })

def withSession (c : Caller) (n : Nat) (slot : Slot) (call : MemoryStore → Session → Prog Sys (α × MemoryStore)) :
    Prog Sys (α × Caller) :=
  onArray c slot.array fun a =>
    match a.sessions[slot.i]? with
    | none => undefinedBehavior
    | some s => onStore c n fun ms => call ms s

def setText (field : SessionText) (value : Option CStr) (s : Session) : Prog Sys (Int × Session) :=
  match field with
  | .id => sessionSetId s value
  | .userId => sessionSetUserId s value
  | .publicKey => sessionSetPublicKey s value
  | .algorithm => sessionSetAlgorithm s value
  | .challenge => sessionSetChallenge s value

def keep (c : Caller) (a : SessionArray) : Nat × Caller := (c.arrays.length, { c with arrays := c.arrays ++ [some a] })

end Caller

/-- The same operations with lists for arrays and no pointers. -/
def caller : Impl Sys CallerSig Caller
  | .newStore, c => do
    match ← memoryStoreNew with
    | none => return (none, c)
    | some ms => return (some c.stores.length, { c with stores := c.stores ++ [some ms] })
  | .create n slot, c => c.withSession n slot memoryStoreCreate
  | .get n id, c => do
    let ((out, lost), c) ← c.onStore n fun ms => do
      let ((out, ms), lost) ← memoryStoreGetLeaking ms id
      return ((out, lost), ms)
    let c := { c with lost := c.lost ++ lost }
    match out with
    | none => return (none, c)
    | some s =>
      let (k, c) := c.keep ⟨[s], false⟩
      return (some k, c)
  | .update n slot, c => c.withSession n slot memoryStoreUpdate
  | .delete n id, c => c.onStore n fun ms => pure (memoryStoreDelete ms id)
  | .getByUserId n userId, c => do
    let (out, c) ← c.onStore n fun ms => memoryStoreGetByUserId ms userId
    match out with
    | none => return (none, c)
    | some ss =>
      let (k, c) := c.keep ⟨ss, false⟩
      return (some (k, ss.length), c)
  | .deleteByUserId n userId, c => c.onStore n fun ms => memoryStoreDeleteByUserId ms userId
  | .freeSessions n k, c => do
    let ((), c) ← c.onArray k fun a =>
      if a.onStack then undefinedBehavior
      else c.onStore n fun ms => pure ((), ms)
    return ((), { c with arrays := c.arrays.set k none })
  | .destroy n, c => do
    let ((), c) ← c.onStore n fun ms => pure ((), ms)
    return ((), { c with stores := c.stores.set n none })
  | .declare, c => pure (c.keep ⟨[sessionInit], true⟩)
  | .leave k, c => do
    c.onArray k fun a => if a.onStack then pure () else undefinedBehavior
    return ((), { c with arrays := c.arrays.set k none })
  | .sessionFree slot, c => c.onSession slot fun _ => pure ((), sessionInit)
  | .setText slot field value, c => c.onSession slot (Caller.setText field value)
  | .setState slot state, c => c.onSession slot fun s => pure ((), sessionSetState s state)
  | .setExpiresAt slot t, c => c.onSession slot fun s => pure ((), sessionSetExpiresAt s t)
  | .setCreatedAt slot t, c => c.onSession slot fun s => pure ((), sessionSetCreatedAt s t)
  | .read slot, c => c.onSession slot fun s => pure (s, s)

/-! ## What a caller owns -/

def heldAt : Option RawArray → Option SessionArray → Assertion HeapBlock
  | none, none => 1
  | some a, some a' => ⨆ _ : a.count = a'.sessions.length ∧ a.onStack = a'.onStack ∧ (a.onStack = true → a.count = 1),
      ownsArray a.sessions a'.sessions
  | _, _ => ⊥

/-- The stores, the arrays, and the strings that are lost: there is nothing else on the heap. -/
def RawCaller.owns (c : RawCaller) (v : Caller) : Assertion HeapBlock :=
  each handleAt c.stores v.stores * (each heldAt c.arrays v.arrays * leaked v.lost)

/-- The same answer, and what is owned then. -/
def callerResult {α : Type} (r : α × RawCaller) (r' : α × Caller) : Assertion HeapBlock := ⨆ _ : r.1 = r'.1, r.2.owns r'.2

section

variable {α α' : Type} {P : Assertion HeapBlock} {q : Prog Sys α'} {Q : α → α' → Assertion HeapBlock} {p : Option Nat}
  {x : OnHeap α} {ss : List Session} {c : RawCaller} {v : Caller} {n : Nat} {slot : Slot}

theorem ownsArray_pre (hr : ∀ raws : List RawSession, raws.length = ss.length →
      Refines (arrayAt p (raws.map some ++ []) * (each RawSession.owns raws ss * P)) x q Q) :
    Refines (ownsArray p ss * P) x q Q := by
  refine .exists_mul fun raws => ?_
  rw [each_length]
  simp only [mul_iSup, iSup_mul, mul_assoc]
  refine .exists_pre fun hlen => ?_
  have hraws := hr raws hlen
  rwa [List.append_nil] at hraws

theorem le_ownsArray (p : Option Nat) (ss : List Session) (raws : List RawSession) (P : Assertion HeapBlock) :
    arrayAt p (raws.map some ++ []) * (each RawSession.owns raws ss * P) ≤ ownsArray p ss * P := by
  have hle : arrayAt p (raws.map some) * each RawSession.owns raws ss ≤ ownsArray p ss :=
    le_iSup (fun raws : List RawSession => arrayAt p (raws.map some) * each RawSession.owns raws ss) raws
  rw [List.append_nil, ← mul_assoc]
  exact mul_le_mul_left hle P

theorem sessionAt_undefined {slots : List (Option RawSession)} {i : Nat} {f : RawSession → OnHeap α} (hi : slots[i]? = none) :
    Refines (arrayAt p slots * P) (Raw.sessionAt p i >>= f) (undefinedBehavior : Prog Sys α') Q := by
  rw [Raw.sessionAt, Raw.slots, bind_assoc, bind_assoc]
  cases p with
  | none => exact .undefined_bind
  | some a =>
    refine .load_bind ?_
    rw [pure_bind, hi]
    exact .undefined_bind

/-- A call of a store. -/
theorem refines_onStore {call : Option Nat → OnHeap α} {call' : MemoryStore → Prog Sys (α' × MemoryStore)}
    {X : α → α' → Assertion HeapBlock} (hcall : ∀ a t ms, Refines (ownsStore a (some t) ms * P) (call (some a)) (call' ms)
      fun x r => ownsStore a (some t) r.2 * X x r.1) :
    Refines (each handleAt c.stores v.stores * P) (Raw.onStore c n call) (v.onStore n call') fun x r =>
      ⨆ (stores) (_ : r.2 = { v with stores }), each handleAt c.stores stores * X x r.1 := by
  refine .each_pre n (fun hx hy => ?_) fun hx hy => ?_
  · rw [Raw.onStore, Caller.onStore, List.getElem?_eq_getElem hx, List.getElem?_eq_getElem hy]
    cases hc : c.stores[n] with
    | none =>
      cases v.stores[n] with
      | none => exact .undefined
      | some ms => exact .bot_mul
    | some t =>
      cases v.stores[n] with
      | none => exact .bot_mul
      | some ms =>
        refine .exists_mul fun a => ?_
        rw [mul_assoc]
        refine .load_bind ?_
        rw [show pts t (.store (some a)) * (ownsStore a (some t) ms *
            (each handleAt (c.stores.eraseIdx n) (v.stores.eraseIdx n) * P)) = ownsStore a (some t) ms * P *
          (pts t (.store (some a)) * each handleAt (c.stores.eraseIdx n) (v.stores.eraseIdx n)) by ac_rfl]
        dsimp only
        rw [← bind_pure (call (some a))]
        refine (hcall a t ms).step fun x r => .pure ?_
        refine le_iSup_of_le (v.stores.set n (some r.2)) (le_iSup_of_le rfl ?_)
        have hset : each handleAt c.stores (v.stores.set n (some r.2)) = handleAt (some t) (some r.2) *
            each handleAt (c.stores.eraseIdx n) (v.stores.eraseIdx n) := by
          rw [← each_set hx hy, ← hc, List.set_getElem_self]
        rw [hset]
        have hhandle : pts t (.store (some a)) * ownsStore a (some t) r.2 ≤ handleAt (some t) (some r.2) :=
          le_iSup (fun a => pts t (.store (some a)) * ownsStore a (some t) r.2) a
        calc _ = pts t (.store (some a)) * ownsStore a (some t) r.2 *
              (each handleAt (c.stores.eraseIdx n) (v.stores.eraseIdx n) * X x r.1) := by ac_rfl
          _ ≤ handleAt (some t) (some r.2) *
              (each handleAt (c.stores.eraseIdx n) (v.stores.eraseIdx n) * X x r.1) := mul_le_mul_left hhandle _
          _ = _ := by rw [mul_assoc]
  · rw [Raw.onStore, Caller.onStore, hx, hy]
    exact .undefined

/-- An array that is named. -/
theorem refines_onArray {k : Nat} {f : RawArray → OnHeap α} {f' : SessionArray → Prog Sys α'}
    (hf : ∀ a a', c.arrays[k]? = some (some a) → v.arrays[k]? = some (some a') →
      a.count = a'.sessions.length ∧ a.onStack = a'.onStack ∧ (a.onStack = true → a.count = 1) →
      Refines (ownsArray a.sessions a'.sessions * (each heldAt (c.arrays.eraseIdx k) (v.arrays.eraseIdx k) * P)) (f a)
        (f' a') Q) :
    Refines (each heldAt c.arrays v.arrays * P) (Raw.onArray c k f) (v.onArray k f') Q := by
  refine .each_pre k (fun hx hy => ?_) fun hx hy => ?_
  · have hget := List.getElem?_eq_getElem hx
    have hget' := List.getElem?_eq_getElem hy
    rw [Raw.onArray, Caller.onArray, hget, hget']
    rcases hc : c.arrays[k] with - | a
    · cases v.arrays[k] with
      | none => exact .undefined
      | some a' => exact .bot_mul
    · rcases hv : v.arrays[k] with - | a'
      · exact .bot_mul
      · exact .exists_mul fun hsame => hf a a' (hget.trans (congrArg some hc)) (hget'.trans (congrArg some hv)) hsame
  · rw [Raw.onArray, Caller.onArray, hx, hy]
    exact .undefined

/-- An array that is put back. -/
theorem each_heldAt_set {k : Nat} {a : RawArray} {a' : SessionArray} (hc : c.arrays[k]? = some (some a))
    (hv : k < v.arrays.length) : each heldAt c.arrays (v.arrays.set k (some a')) =
      heldAt (some a) (some a') * each heldAt (c.arrays.eraseIdx k) (v.arrays.eraseIdx k) := by
  obtain ⟨hk, hget⟩ := List.getElem?_eq_some_iff.mp hc
  rw [← each_set hk hv, ← hget, List.set_getElem_self]

theorem each_heldAt_none {k : Nat} {a : RawArray} {a' : SessionArray} (hc : c.arrays[k]? = some (some a))
    (hv : v.arrays[k]? = some (some a')) : each heldAt (c.arrays.set k none) (v.arrays.set k none) =
      each heldAt (c.arrays.eraseIdx k) (v.arrays.eraseIdx k) := by
  rw [each_set (List.getElem?_eq_some_iff.mp hc).1 (List.getElem?_eq_some_iff.mp hv).1, heldAt, one_mul]

theorem ownsArray_le_heldAt {a : RawArray} {a' : SessionArray}
    (hsame : a.count = a'.sessions.length ∧ a.onStack = a'.onStack ∧ (a.onStack = true → a.count = 1)) :
    ownsArray a.sessions a'.sessions ≤ heldAt (some a) (some a') := le_iSup_of_le hsame le_rfl

theorem le_each_heldAt {k : Nat} {a : RawArray} {a' : SessionArray} (hc : c.arrays[k]? = some (some a))
    (hv : v.arrays[k]? = some (some a'))
    (hsame : a.count = a'.sessions.length ∧ a.onStack = a'.onStack ∧ (a.onStack = true → a.count = 1)) :
    ownsArray a.sessions a'.sessions * each heldAt (c.arrays.eraseIdx k) (v.arrays.eraseIdx k) ≤
      each heldAt c.arrays v.arrays := by
  obtain ⟨hk, hget⟩ := List.getElem?_eq_some_iff.mp hc
  obtain ⟨hk', hget'⟩ := List.getElem?_eq_some_iff.mp hv
  rw [each_get hk hk', hget, hget']
  exact mul_le_mul_left (ownsArray_le_heldAt hsame) _

theorem refines_onSession {f : RawSession → OnHeap (α × RawSession)} {f' : Session → Prog Sys (α × Session)}
    (hf : ∀ raw s, Refines (RawSession.owns raw s) (f raw) (f' s) fun r r' => ⨆ _ : r.1 = r'.1, r.2.owns r'.2) :
    Refines (each heldAt c.arrays v.arrays * P) (Raw.onSession c slot f) (v.onSession slot f') fun x r =>
      ⨆ (arrays) (_ : x = r.1 ∧ r.2 = { v with arrays }), each heldAt c.arrays arrays * P := by
  refine refines_onArray fun a a' hc hv hsame => ownsArray_pre fun raws hlen => ?_
  by_cases hi : slot.i < a'.sessions.length
  · have hi' : slot.i < raws.length := hlen ▸ hi
    rw [List.getElem?_eq_getElem hi]
    dsimp only
    refine elem_bind hi' hi ?_
    refine (hf raws[slot.i] a'.sessions[slot.i]).step fun r r' => .exists_mul fun hx => ?_
    rw [mul_left_comm]
    refine setSessionAt_bind (by simp; omega) (.pure ?_)
    have harray := le_ownsArray a.sessions (a'.sessions.set slot.i r'.2) (raws.set slot.i r.2)
      (each heldAt (c.arrays.eraseIdx slot.array) (v.arrays.eraseIdx slot.array) * P)
    rw [← slots_set hi', each_set hi' hi, mul_assoc] at harray
    refine harray.trans (le_iSup_of_le _ (le_iSup_of_le ⟨hx, rfl⟩ ?_))
    rw [each_heldAt_set hc (List.getElem?_eq_some_iff.mp hv).1, mul_assoc]
    refine mul_le_mul_left ?_ _
    have hsame' : a.count = (a'.sessions.set slot.i r'.2).length ∧ a.onStack = a'.onStack ∧ (a.onStack = true → a.count = 1) := by
      simpa using hsame
    exact le_iSup_of_le hsame' le_rfl
  · rw [List.getElem?_eq_none (Nat.le_of_not_lt hi)]
    exact sessionAt_undefined (by simp; omega)

/-- A session that is only looked at. -/
theorem borrow_pre {g : RawSession → OnHeap α} {f' : SessionArray → Prog Sys α'} (g' : Session → Prog Sys α')
    (hnone : ∀ a : SessionArray, a.sessions[slot.i]? = none → f' a = undefinedBehavior)
    (hsome : ∀ (a : SessionArray) s, a.sessions[slot.i]? = some s → f' a = g' s)
    (hr : ∀ raw s R, RawSession.owns raw s * R ≤ each heldAt c.arrays v.arrays → Refines (raw.owns s * (R * P)) (g raw) (g' s) Q) :
    Refines (each heldAt c.arrays v.arrays * P) (Raw.onArray c slot.array fun a => Raw.sessionAt a.sessions slot.i >>= g)
      (v.onArray slot.array f') Q := by
  refine refines_onArray fun a a' hc hv hsame => ownsArray_pre fun raws hlen => ?_
  by_cases hi : slot.i < a'.sessions.length
  · have hi' : slot.i < raws.length := hlen ▸ hi
    rw [hsome a' _ (List.getElem?_eq_getElem hi)]
    refine elem_bind hi' hi ?_
    have hclose := (le_ownsArray a.sessions a'.sessions raws _).trans (le_each_heldAt hc hv hsame)
    rw [← elem_eq hi' hi] at hclose
    have helem := hr _ _ _ hclose
    simpa only [mul_assoc] using helem
  · rw [hnone a' (List.getElem?_eq_none (Nat.le_of_not_lt hi))]
    exact sessionAt_undefined (by simp; omega)

theorem refines_withSession {call : Option Nat → RawSession → OnHeap Int}
    {call' : MemoryStore → Session → Prog Sys (Int × MemoryStore)}
    (hcall : ∀ a t ms raw s, Refines (ownsStore a (some t) ms * RawSession.owns raw s) (call (some a) raw) (call' ms s)
      fun x r => storeResult a (some t) x r * raw.owns s) :
    Refines (c.owns v) (Raw.withSession c n slot call) (v.withSession n slot call') fun x r =>
      ⨆ _ : x = r.1, c.owns r.2 := by
  rw [RawCaller.owns, mul_left_comm, Raw.withSession, Caller.withSession]
  refine borrow_pre (fun s => v.onStore n fun ms => call' ms s) (fun a ha => by rw [ha])
    (fun a s ha => by rw [ha]) fun raw s R hclose => ?_
  rw [← mul_assoc, mul_left_comm]
  have hstore : Refines (each handleAt c.stores v.stores * (raw.owns s * R * leaked v.lost))
      (Raw.onStore c n fun impl => call impl raw) (v.onStore n fun ms => call' ms s)
      fun x r => ⨆ (stores) (_ : r.2 = { v with stores }), each handleAt c.stores stores *
        ⨆ _ : x = r.1, raw.owns s * R * leaked v.lost := by
    refine refines_onStore (X := fun x y => ⨆ _ : x = y, raw.owns s * R * leaked v.lost) fun b t ms => ?_
    rw [mul_assoc, ← mul_assoc (ownsStore _ _ _)]
    refine ((hcall b t ms raw s).frame (R * leaked v.lost)).post fun x r => ?_
    simp only [storeResult, mul_iSup, iSup_mul, mul_assoc]
    exact le_rfl
  refine hstore.post fun x r => ?_
  refine iSup_le fun stores => iSup_le fun hv => ?_
  rw [mul_iSup]
  refine iSup_le fun hx => le_iSup_of_le hx ?_
  rw [hv, RawCaller.owns]
  exact mul_le_mul_right (mul_le_mul_left hclose _) _

/-- A call of a store that reads a session. -/
theorem refines_sessionCall {call : Option Nat → RawSession → OnHeap Int}
    {call' : MemoryStore → Session → Prog Sys (Int × MemoryStore)}
    (hcall : ∀ a t ms raw s, Refines (ownsStore a (some t) ms * RawSession.owns raw s) (call (some a) raw) (call' ms s)
      fun x r => storeResult a (some t) x r * raw.owns s) :
    Refines (c.owns v) (do return (← Raw.withSession c n slot call, c)) (v.withSession n slot call') callerResult := by
  rw [← bind_pure (v.withSession n slot call')]
  refine (refines_withSession hcall).bind fun x r => .exists_pre fun hx => .pure ?_
  exact le_iSup_of_le hx le_rfl

/-- A call of a store that answers a code. -/
theorem refines_storeCall {call : Option Nat → OnHeap Int} {call' : MemoryStore → Prog Sys (Int × MemoryStore)}
    (hcall : ∀ a t ms, Refines (ownsStore a (some t) ms) (call (some a)) (call' ms) (storeResult a (some t))) :
    Refines (c.owns v) (do return (← Raw.onStore c n call, c)) (v.onStore n call') callerResult := by
  rw [← bind_pure (v.onStore n call')]
  refine Refines.bind (refines_onStore (X := fun x y => ⨆ _ : x = y, each heldAt c.arrays v.arrays * leaked v.lost)
    fun a t ms => ?_) fun x r => ?_
  · refine ((hcall a t ms).frame _).post fun x r => ?_
    simp only [storeResult, mul_iSup, iSup_mul]
    exact le_rfl
  · refine .exists_pre fun stores => .exists_pre fun hv => .pure ?_
    rw [mul_iSup, callerResult, hv]
    exact le_rfl

/-- A function of `session.c`. -/
theorem refines_setter {f : RawSession → OnHeap (α × RawSession)} {f' : Session → Prog Sys (α × Session)}
    (hf : ∀ raw s, Refines (RawSession.owns raw s) (f raw) (f' s) fun r r' => ⨆ _ : r.1 = r'.1, r.2.owns r'.2) :
    Refines (c.owns v) (do return (← Raw.onSession c slot f, c)) (v.onSession slot f') callerResult := by
  rw [← bind_pure (v.onSession slot f'), RawCaller.owns, mul_left_comm]
  refine (refines_onSession hf).bind fun x r => ?_
  refine .exists_pre fun arrays => .exists_pre fun hx => .pure ?_
  rw [callerResult, hx.2, RawCaller.owns, mul_left_comm]
  exact le_iSup_of_le hx.1 le_rfl

/-- An array the caller is given. -/
theorem owns_keep (a : RawArray) (a' : SessionArray) : heldAt (some a) (some a') * c.owns v ≤
    callerResult (Raw.keep c a) (v.keep a') := by
  rw [RawCaller.owns, mul_left_comm, ← mul_assoc (heldAt _ _), mul_each, callerResult, iSup_mul, mul_iSup]
  exact le_rfl

theorem callerResult_map {β : Type} (f : α → β) (r : α × RawCaller) (r' : α × Caller) :
    callerResult r r' ≤ callerResult (f r.1, r.2) (f r'.1, r'.2) :=
  iSup_le fun hr => le_iSup_of_le (congrArg f hr) le_rfl

/-- An array a store gave. -/
theorem ownsArray_keep {β : Type} (f : Nat → β) (p : Option Nat) (ss : List Session) : ownsArray p ss * c.owns v ≤
    callerResult (f (Raw.keep c ⟨p, ss.length, false⟩).1, (Raw.keep c ⟨p, ss.length, false⟩).2)
      (f (v.keep ⟨ss, false⟩).1, (v.keep ⟨ss, false⟩).2) := by
  have harray : ownsArray p ss ≤ heldAt (some ⟨p, ss.length, false⟩) (some ⟨ss, false⟩) :=
    le_iSup_of_le ⟨rfl, rfl, fun hstack => nomatch hstack⟩ le_rfl
  calc ownsArray p ss * c.owns v ≤ heldAt (some ⟨p, ss.length, false⟩) (some ⟨ss, false⟩) * c.owns v :=
        mul_le_mul_left harray _
    _ ≤ _ := (owns_keep _ _).trans (callerResult_map f _ _)

theorem refines_setText (field : SessionText) (value : Option CStr) (raw : RawSession) (s : Session) :
    Refines (raw.owns s) (Raw.setText field value raw) (Caller.setText field value s) fun r r' =>
      ⨆ _ : r.1 = r'.1, r.2.owns r'.2 := by
  cases field with
  | id => exact refines_setField (isField_id raw s) raw.id s.id value
  | userId => exact refines_setField (isField_userId raw s) raw.userId s.userId value
  | publicKey => exact refines_setField (isField_publicKey raw s) raw.publicKey s.publicKey value
  | algorithm => exact refines_setField (isField_algorithm raw s) raw.algorithm s.algorithm value
  | challenge => exact refines_setField (isField_challenge raw s) raw.challenge s.challenge value

theorem refines_readSession (raw : RawSession) (s : Session) :
    Refines (raw.owns s) (do return (← Raw.readSession raw, raw)) (pure (s, s)) fun r r' =>
      ⨆ _ : r.1 = r'.1, r.2.owns r'.2 := by
  rw [← mul_one (raw.owns s), owns_same, iSup_mul]
  refine .exists_pre fun hsame => ?_
  simp only [Raw.readSession, bind_assoc]
  refine readId_bind (readUserId_bind (readPublicKey_bind (readAlgorithm_bind (readChallenge_bind ?_))))
  obtain ⟨hstate, hexpires, hhas, hcreated⟩ := hsame
  rw [hstate, hexpires, hhas, hcreated]
  exact .pure (le_iSup_of_le rfl (le_of_eq (mul_one _)))

theorem owns_setState (raw : RawSession) (s : Session) (state : SessionState) :
    raw.owns s ≤ (Raw.sessionSetState raw state).owns (sessionSetState s state) :=
  iSup_le fun hsame => le_iSup_of_le ⟨rfl, hsame.2⟩ le_rfl

theorem owns_setExpiresAt (raw : RawSession) (s : Session) (t : Int) :
    raw.owns s ≤ (Raw.sessionSetExpiresAt raw t).owns (sessionSetExpiresAt s t) :=
  iSup_le fun hsame => le_iSup_of_le ⟨hsame.1, rfl, rfl, hsame.2.2.2⟩ le_rfl

theorem owns_setCreatedAt (raw : RawSession) (s : Session) (t : Int) :
    raw.owns s ≤ (Raw.sessionSetCreatedAt raw t).owns (sessionSetCreatedAt s t) :=
  iSup_le fun hsame => le_iSup_of_le ⟨hsame.1, hsame.2.1, hsame.2.2.1, rfl⟩ le_rfl

end

section

variable {c : RawCaller} {v : Caller} (n k : Nat)

theorem refines_callerGet (id : Option CStr) :
    Refines (c.owns v) (Raw.caller (.get n id) c) (caller (.get n id) v) callerResult := by
  refine Refines.bind (refines_onStore (X := fun x y => copyAt x y.1 * leaked y.2 * (each heldAt c.arrays v.arrays * leaked v.lost))
    fun a t ms => ?_) fun x r => ?_
  · have hget : Refines (ownsStore a (some t) ms) (Raw.memoryStoreGet (some a) id)
        (do
          let ((out, ms), lost) ← memoryStoreGetLeaking ms id
          return ((out, lost), ms))
        fun x r => ownsStore a (some t) r.2 * (copyAt x r.1.1 * leaked r.1.2) := by
      rw [← bind_pure (Raw.memoryStoreGet (some a) id)]
      exact refines_get.bind fun x r => .pure le_rfl
    exact (hget.frame _).post fun x r => le_of_eq (by simp only [mul_assoc])
  · refine .exists_pre fun stores => .exists_pre fun hv => ?_
    obtain ⟨⟨out, lost⟩, v'⟩ := r
    obtain rfl : v' = { v with stores } := hv
    have hparts : each handleAt c.stores stores * (copyAt x out * leaked lost *
        (each heldAt c.arrays v.arrays * leaked v.lost)) = copyAt x out * c.owns ⟨stores, v.arrays, v.lost ++ lost⟩ := by
      rw [RawCaller.owns, leaked_append]
      ac_rfl
    dsimp only
    rw [hparts]
    cases x with
    | none =>
      cases out with
      | none => exact .pure (le_iSup_of_le rfl (le_of_eq (one_mul _)))
      | some s => exact .bot_mul
    | some p =>
      cases out with
      | none => exact .bot_mul
      | some s => exact .pure (ownsArray_keep some p [s])

theorem refines_callerGetByUserId (userId : Option CStr) :
    Refines (c.owns v) (Raw.caller (.getByUserId n userId) c) (caller (.getByUserId n userId) v) callerResult := by
  refine Refines.bind (refines_onStore (X := fun x y => foundAt x y * (each heldAt c.arrays v.arrays * leaked v.lost))
    fun a t ms => ?_) fun x r => ?_
  · exact (refines_getByUserId.frame _).post fun x r => le_of_eq (by simp only [mul_assoc])
  · refine .exists_pre fun stores => .exists_pre fun hv => ?_
    obtain ⟨out, v'⟩ := r
    obtain rfl : v' = { v with stores } := hv
    have hparts : each handleAt c.stores stores * (foundAt x out * (each heldAt c.arrays v.arrays * leaked v.lost)) =
        foundAt x out * c.owns { v with stores } := by
      rw [RawCaller.owns, mul_left_comm]
    dsimp only
    rw [hparts]
    cases x with
    | none =>
      cases out with
      | none => exact .pure (le_iSup_of_le rfl (le_of_eq (one_mul _)))
      | some ss => exact .bot_mul
    | some found =>
      obtain ⟨p, count⟩ := found
      cases out with
      | none => exact .bot_mul
      | some ss =>
        refine .exists_mul fun hcount => ?_
        subst hcount
        exact .pure (ownsArray_keep (fun k => some (k, ss.length)) p ss)

theorem refines_callerFreeSessions :
    Refines (c.owns v) (Raw.caller (.freeSessions n k) c) (caller (.freeSessions n k) v) callerResult := by
  rw [RawCaller.owns, mul_left_comm]
  refine Refines.bind (Q := fun _ r => ⨆ (stores) (_ : r.2 = { v with stores }), each handleAt c.stores stores *
    (each heldAt (c.arrays.set k none) (v.arrays.set k none) * leaked v.lost))
    (refines_onArray fun a a' hc hv hsame => ?_) fun _ r => ?_
  · rw [hsame.2.1]
    by_cases hstack : a'.onStack = true
    · rw [if_pos hstack, if_pos hstack]
      exact .undefined
    · rw [if_neg hstack, if_neg hstack, hsame.1, ← each_heldAt_none hc hv]
      rw [show ownsArray a.sessions a'.sessions * (each heldAt (c.arrays.set k none) (v.arrays.set k none) *
          (each handleAt c.stores v.stores * leaked v.lost)) = each handleAt c.stores v.stores *
        (ownsArray a.sessions a'.sessions * (each heldAt (c.arrays.set k none) (v.arrays.set k none) * leaked v.lost)) by
        ac_rfl]
      refine refines_onStore (X := fun _ _ => each heldAt (c.arrays.set k none) (v.arrays.set k none) * leaked v.lost)
        fun b t ms => ?_
      rw [mul_left_comm, ← bind_pure (Raw.memoryStoreFreeSessions _ _)]
      exact freeSessions_bind (.pure le_rfl)
  · refine .exists_pre fun stores => .exists_pre fun hv => .pure (le_iSup_of_le rfl ?_)
    rw [hv]
    exact le_rfl

theorem refines_callerDestroy : Refines (c.owns v) (Raw.caller (.destroy n) c) (caller (.destroy n) v) callerResult := by
  refine Refines.bind (Q := fun _ r => ⨆ (stores) (_ : r.2 = { v with stores }),
    each handleAt (c.stores.set n none) (stores.set n none) * (each heldAt c.arrays v.arrays * leaked v.lost))
    (.each_pre n (fun hx hy => ?_) fun hx hy => ?_) fun _ r => ?_
  · rw [Raw.onStore, Caller.onStore, List.getElem?_eq_getElem hx, List.getElem?_eq_getElem hy]
    cases c.stores[n] with
    | none =>
      cases v.stores[n] with
      | none => exact .undefined
      | some ms => exact .bot_mul
    | some t =>
      cases v.stores[n] with
      | none => exact .bot_mul
      | some ms =>
        refine .exists_mul fun a => ?_
        rw [mul_assoc]
        refine .load_bind ?_
        dsimp only
        rw [← bind_pure (Raw.memoryStoreDestroy _)]
        refine destroy_bind (.pure (le_iSup_of_le (v.stores.set n (some ms)) (le_iSup_of_le rfl ?_)))
        rw [List.set_set, each_set hx hy, handleAt, one_mul]
  · rw [Raw.onStore, Caller.onStore, hx, hy]
    exact .undefined
  · refine .exists_pre fun stores => .exists_pre fun hv => .pure (le_iSup_of_le rfl ?_)
    rw [hv]
    exact le_rfl

theorem refines_callerLeave : Refines (c.owns v) (Raw.caller (.leave k) c) (caller (.leave k) v) callerResult := by
  rw [RawCaller.owns, mul_left_comm]
  refine Refines.bind (Q := fun _ _ => each heldAt (c.arrays.set k none) (v.arrays.set k none) *
    (each handleAt c.stores v.stores * leaked v.lost))
    (refines_onArray fun a a' hc hv hsame => ?_) fun _ r => .pure (le_iSup_of_le rfl ?_)
  · rw [← hsame.2.1]
    by_cases hstack : a.onStack = true
    · rw [if_pos hstack, if_pos hstack, ← each_heldAt_none hc hv]
      refine ownsArray_pre fun raws hlen => ?_
      have hone : raws.length = 1 := by
        rw [hlen, ← hsame.1]
        exact hsame.2.2 hstack
      have hrun : (do
          Raw.freeAt a.sessions 0
          free a.sessions) = Raw.freeFrom a.sessions raws.length 0 >>= fun _ => free a.sessions >>= pure := by
        simp [hone, Raw.freeFrom]
      rw [hrun]
      exact freeArray_bind (.pure le_rfl)
    · rw [if_neg hstack, if_neg hstack]
      exact .undefined
  · rw [RawCaller.owns, mul_left_comm]

end

/-- **Each operation on the heap does as it does on values**, and the caller owns what it did there. -/
theorem refines_caller (o : CallerOp) (c : RawCaller) (v : Caller) :
    Refines (c.owns v) (Raw.caller o c) (caller o v) callerResult := by
  cases o with
  | newStore =>
    rw [← one_mul (c.owns v)]
    refine refines_new.step fun st ms => ?_
    cases st with
    | none =>
      cases ms with
      | none => exact .pure (le_iSup_of_le rfl (le_of_eq (one_mul _)))
      | some ms => exact .bot_mul
    | some st =>
      cases ms with
      | none => exact .bot_mul
      | some ms =>
        refine .pure ?_
        rw [RawCaller.owns, ← mul_assoc, mul_each, iSup_mul]
        exact iSup_le fun hlen => le_iSup_of_le (congrArg some hlen) le_rfl
  | create n slot => exact refines_sessionCall fun a t ms raw s => refines_create
  | get n id => exact refines_callerGet n id
  | update n slot => exact refines_sessionCall fun a t ms raw s => refines_update
  | delete n id => exact refines_storeCall fun a t ms => refines_delete
  | getByUserId n userId => exact refines_callerGetByUserId n userId
  | deleteByUserId n userId => exact refines_storeCall fun a t ms => refines_deleteByUserId
  | freeSessions n k => exact refines_callerFreeSessions n k
  | destroy n => exact refines_callerDestroy n
  | declare =>
    refine .place_bind fun a => .pure (le_trans (mul_le_mul_left ?_ _) (owns_keep ⟨some a, 1, true⟩ ⟨[sessionInit], true⟩))
    refine le_trans ?_ (ownsArray_le_heldAt ⟨rfl, rfl, fun _ => rfl⟩)
    exact le_iSup_of_le [Raw.sessionInit] (by simp [arrayAt, each])
  | leave k => exact refines_callerLeave k
  | sessionFree slot =>
    refine refines_setter fun raw s => ?_
    rw [← mul_one (raw.owns s)]
    refine sessionFree_bind (.pure (le_iSup_of_le rfl ?_))
    rw [owns_init]
  | setText slot field value => exact refines_setter (refines_setText field value)
  | setState slot state => exact refines_setter fun raw s => .pure (le_iSup_of_le rfl (owns_setState raw s state))
  | setExpiresAt slot t => exact refines_setter fun raw s => .pure (le_iSup_of_le rfl (owns_setExpiresAt raw s t))
  | setCreatedAt slot t => exact refines_setter fun raw s => .pure (le_iSup_of_le rfl (owns_setCreatedAt raw s t))
  | read slot => exact refines_setter refines_readSession

end OpenDbsc
