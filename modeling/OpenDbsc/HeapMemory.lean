/-
`store/memory.c` on a heap: the array that grows, shrinks and is freed.

Removing a session leaves the slot behind the last one as it was, with pointers
that are freed or belong to the slot the last session moved to. No function
looks there before it has written the slot.
-/
import OpenDbsc.HeapSession
import OpenDbsc.Memory

namespace OpenDbsc

open Effects Heaps Records

/-- `sizeof(OpenDBSC_MemoryStore)` and `sizeof(OpenDBSC_Store)` on LP64, with a mutex of 40 bytes. -/
def sizeofMemoryStore : Nat := 72

def sizeofStore : Nat := 72

namespace Raw

/-! ## Slots of an array -/

def slots (sessions : Option Nat) : OnHeap (List (Option RawSession)) := do
  match ← load sessions with
  | .sessions slots => pure slots
  | _ => undefined

/-- `sessions[i]`, which has been written. -/
def sessionAt (sessions : Option Nat) (i : Nat) : OnHeap RawSession := do
  match (← slots sessions)[i]? with
  | some (some s) => pure s
  | _ => undefined

def setSessionAt (sessions : Option Nat) (i : Nat) (s : RawSession) : OnHeap Unit := do
  let slots ← slots sessions
  if i < slots.length then store sessions (.sessions (slots.set i (some s)))
  else undefined

/-- `opendbsc_session_init(&sessions[i])`. -/
def initAt (sessions : Option Nat) (i : Nat) : OnHeap Unit := setSessionAt sessions i sessionInit

/-- `opendbsc_session_free(&sessions[i])`. -/
def freeAt (sessions : Option Nat) (i : Nat) : OnHeap Unit := do
  let s ← sessionFree (← sessionAt sessions i)
  setSessionAt sessions i s

/-- `opendbsc_session_copy(&sessions[i], src)`. -/
def copyInto (sessions : Option Nat) (i : Nat) (src : RawSession) : OnHeap Int := do
  let (rc, s) ← sessionCopy (← sessionAt sessions i) src
  setSessionAt sessions i s
  pure rc

/-- The loop that frees `n` sessions, from slot `i`. -/
def freeFrom (sessions : Option Nat) : Nat → Nat → OnHeap Unit
  | 0, _ => pure ()
  | n + 1, i => do
    freeAt sessions i
    freeFrom sessions n (i + 1)

/-! ## The store -/

def memoryStoreCast (impl : Option Nat) : OnHeap RawMemoryStore := do
  match ← load impl with
  | .memoryStore ms => pure ms
  | _ => undefined

def memoryStoreIsExpired (session : RawSession) : OnHeap Bool :=
  if !session.hasExpires then pure false
  else do
    let now ← ask time
    pure (decide (now > session.expiresAt))

/-- The array at its new size; what is new in it has not been written. -/
def grown (capacity : Nat) : Option HeapBlock → HeapBlock
  | some (.sessions slots) => .sessions (slots.take capacity ++ List.replicate (capacity - slots.length) none)
  | _ => .sessions (List.replicate capacity none)

def memoryStoreGrow (impl : Option Nat) : OnHeap Int := do
  let ms ← memoryStoreCast impl
  if ms.count < ms.capacity then return 0
  let newCapacity := if ms.capacity = 0 then memoryStoreInitialCapacity else ms.capacity * 2
  match ← reallocate ms.sessions (newCapacity * sizeofSession) (grown newCapacity) with
  | none => return -1
  | some newSessions =>
    store impl (.memoryStore { ms with sessions := some newSessions, capacity := newCapacity })
    return 0

/-- The scan for `id` of `n` slots, from slot `i`. -/
def findFrom (sessions : Option Nat) (id : CStr) : Nat → Nat → OnHeap (Option Nat)
  | 0, _ => pure none
  | n + 1, i => do
    let s ← sessionAt sessions i
    if (← charsOrNull s.id) = some id then return some i
    findFrom sessions id n (i + 1)

def memoryStoreFind (impl : Option Nat) (id : Option CStr) : OnHeap (Option Nat) := do
  match id with
  | none => return none
  | some id =>
    let ms ← memoryStoreCast impl
    findFrom ms.sessions id ms.count 0

def memoryStoreRemoveAt (impl : Option Nat) (idx : Nat) : OnHeap Unit := do
  let ms ← memoryStoreCast impl
  freeAt ms.sessions idx
  if idx ≠ ms.count - 1 then
    let last ← sessionAt ms.sessions (ms.count - 1)
    setSessionAt ms.sessions idx last
  store impl (.memoryStore { ms with count := ms.count - 1 })

/-- The two loops that remove while they scan; each turn comes a slot nearer to the end. -/
def memoryStoreSweep (test : RawSession → OnHeap Bool) (impl : Option Nat) : Nat → Nat → OnHeap Unit
  | 0, _ => pure ()
  | n + 1, i => do
    let ms ← memoryStoreCast impl
    if i < ms.count then
      if ← test (← sessionAt ms.sessions i) then
        memoryStoreRemoveAt impl i
        memoryStoreSweep test impl n i
      else memoryStoreSweep test impl n (i + 1)

def memoryStoreExpire (impl : Option Nat) : OnHeap Unit := do
  let ms ← memoryStoreCast impl
  memoryStoreSweep memoryStoreIsExpired impl ms.count 0

/-- A copy into slot `idx`, which is left blank when it fails. -/
def memoryStoreReplace (impl : Option Nat) (idx : Nat) (session : RawSession) : OnHeap Int := do
  let ms ← memoryStoreCast impl
  freeAt ms.sessions idx
  let rc ← copyInto ms.sessions idx session
  if rc ≠ 0 then
    freeAt ms.sessions idx
    initAt ms.sessions idx
    return -1
  return 0

def memoryStoreCreate (impl : Option Nat) (session : RawSession) : OnHeap Int := do
  if session.id = none then return -1
  match ← memoryStoreFind impl (← charsOrNull session.id) with
  | some idx => memoryStoreReplace impl idx session
  | none =>
    let rc ← memoryStoreGrow impl
    if rc ≠ 0 then return -1
    let ms ← memoryStoreCast impl
    initAt ms.sessions ms.count
    let rc ← copyInto ms.sessions ms.count session
    if rc ≠ 0 then
      freeAt ms.sessions ms.count
      initAt ms.sessions ms.count
      return -1
    store impl (.memoryStore { ms with count := ms.count + 1 })
    return 0

/-- The copy, when the code is 0. -/
def memoryStoreGet (impl : Option Nat) (id : Option CStr) : OnHeap (Option (Option Nat)) := do
  match ← memoryStoreFind impl id with
  | none => return none
  | some idx =>
    let ms ← memoryStoreCast impl
    let stored ← sessionAt ms.sessions idx
    if ← memoryStoreIsExpired stored then
      memoryStoreRemoveAt impl idx
      return none
    let copy ← alloc sizeofSession (.sessions [none])
    if copy = none then return none
    initAt copy 0
    let rc ← copyInto copy 0 stored
    if rc ≠ 0 then
      free copy
      return none
    return some copy

def memoryStoreUpdate (impl : Option Nat) (session : RawSession) : OnHeap Int := do
  if session.id = none then return -1
  match ← memoryStoreFind impl (← charsOrNull session.id) with
  | none => return -1
  | some idx => memoryStoreReplace impl idx session

def memoryStoreDelete (impl : Option Nat) (id : Option CStr) : OnHeap Int := do
  match ← memoryStoreFind impl id with
  | none => return 0
  | some idx =>
    memoryStoreRemoveAt impl idx
    return 0

/-- The test of the three loops over a user's sessions. -/
def isOf (userId : CStr) (s : RawSession) : OnHeap Bool := do
  return (← charsOrNull s.userId) == some userId

def countMatches (sessions : Option Nat) (userId : CStr) : Nat → Nat → OnHeap Nat
  | 0, _ => pure 0
  | n + 1, i => do
    let found ← isOf userId (← sessionAt sessions i)
    let rest ← countMatches sessions userId n (i + 1)
    return if found then rest + 1 else rest

/-- The copies of `n` slots' matches from slot `i`, with `written` of them there.
A copy that fails takes the others with it. -/
def copyMatches (sessions found : Option Nat) (userId : CStr) : Nat → Nat → Nat → OnHeap Bool
  | 0, _, _ => pure true
  | n + 1, i, written => do
    let s ← sessionAt sessions i
    if ← isOf userId s then
      initAt found written
      let rc ← copyInto found written s
      if rc ≠ 0 then
        freeAt found written
        freeFrom found written 0
        free found
        return false
      copyMatches sessions found userId n (i + 1) (written + 1)
    else copyMatches sessions found userId n (i + 1) written

/-- The copies and how many they are, when the code is 0. -/
def memoryStoreGetByUserId (impl : Option Nat) (userId : Option CStr) : OnHeap (Option (Option Nat × Nat)) := do
  match userId with
  | none => return none
  | some userId =>
    memoryStoreExpire impl
    let ms ← memoryStoreCast impl
    let matchCount ← countMatches ms.sessions userId ms.count 0
    if matchCount = 0 then return some (none, 0)
    let found ← alloc (matchCount * sizeofSession) (.sessions (List.replicate matchCount none))
    if found = none then return none
    if ← copyMatches ms.sessions found userId ms.count 0 0 then return some (found, matchCount)
    else return none

def memoryStoreDeleteByUserId (impl : Option Nat) (userId : Option CStr) : OnHeap Int := do
  match userId with
  | none => return 0
  | some userId =>
    let ms ← memoryStoreCast impl
    memoryStoreSweep (isOf userId) impl ms.count 0
    return 0

def memoryStoreFreeSessions (sessions : Option Nat) (count : Nat) : OnHeap Unit := do
  if sessions = none then return
  freeFrom sessions count 0
  free sessions

def memoryStoreDestroy (impl : Option Nat) : OnHeap Unit := do
  if impl = none then return
  let ms ← memoryStoreCast impl
  freeFrom ms.sessions ms.count 0
  free ms.sessions
  store impl (.memoryStore { ms with sessions := none, count := 0, capacity := 0 })
  free impl
  free ms.store

/-- `opendbsc_memory_store_create`. -/
def memoryStoreNew : OnHeap (Option Nat) := do
  let impl ← alloc sizeofMemoryStore (.memoryStore ⟨none, 0, 0, none⟩)
  if impl = none then return none
  if !(← ask libraryAlloc) then
    free impl
    return none
  let st ← alloc sizeofStore (.store impl)
  if st = none then
    free impl
    return none
  store impl (.memoryStore ⟨none, 0, 0, st⟩)
  return st

end Raw

end OpenDbsc
