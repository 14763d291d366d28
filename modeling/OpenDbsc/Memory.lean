/-
`store/memory.c`: the sessions in a growing array.

`sessions` is the first `count` slots of the allocation. The mutex makes each
call atomic, which is what a call on a component is. An index is kept as it
is: the source returns it as an `int`, which is the same below 2^31 sessions.
-/
import OpenDbsc.Records.Sweep
import OpenDbsc.Store

namespace OpenDbsc

open Effects Records

structure MemoryStore where
  sessions : List Session
  capacity : Nat
  deriving DecidableEq

namespace MemoryStore

def count (ms : MemoryStore) : Nat := ms.sessions.length

/-- The store of `opendbsc_memory_store_create`. -/
def empty : MemoryStore := ⟨[], 0⟩

end MemoryStore

def memoryStoreInitialCapacity : Nat := 8

def memoryStoreIsExpired (session : Session) : Prog Sys Bool :=
  if !session.hasExpires then pure false
  else do
    let now ← time
    pure (decide (now > session.expiresAt))

def memoryStoreGrow (ms : MemoryStore) : Prog Sys (Int × MemoryStore) :=
  if ms.count < ms.capacity then pure (0, ms)
  else do
    let newCapacity := if ms.capacity = 0 then memoryStoreInitialCapacity else ms.capacity * 2
    if ← malloc (newCapacity * sizeofSession) then pure (0, { ms with capacity := newCapacity })
    else pure (-1, ms)

def memoryStoreFind (ms : MemoryStore) (id : Option CStr) : Option (Fin ms.sessions.length) :=
  match id with
  | none => none
  | some id => ms.sessions.findFinIdx? fun s => s.id == some id

def memoryStoreRemoveAt (ms : MemoryStore) (idx : Nat) : MemoryStore :=
  { ms with sessions := swapRemove ms.sessions idx }

/-- The two loops that remove while they scan differ only in their test. -/
def memoryStoreSweep (test : Session → Prog Sys Bool) (ms : MemoryStore) : Prog Sys MemoryStore := do
  let sessions ← sweep test ms.sessions 0
  pure { ms with sessions }

def memoryStoreExpire (ms : MemoryStore) : Prog Sys MemoryStore := memoryStoreSweep memoryStoreIsExpired ms

/-- The copy into slot `idx`, which is left blank when it fails. -/
def memoryStoreReplace (ms : MemoryStore) (idx : Nat) (session : Session) : Prog Sys (Int × MemoryStore) := do
  let (rc, copy) ← sessionCopy session
  if rc ≠ 0 then pure (-1, { ms with sessions := ms.sessions.set idx sessionInit })
  else pure (0, { ms with sessions := ms.sessions.set idx copy })

def memoryStoreCreate (ms : MemoryStore) (session : Session) : Prog Sys (Int × MemoryStore) :=
  if session.id = none then pure (-1, ms)
  else match memoryStoreFind ms session.id with
    | some idx => memoryStoreReplace ms idx session
    | none => do
      let (rc, ms) ← memoryStoreGrow ms
      if rc ≠ 0 then return (-1, ms)
      let (rc, copy) ← sessionCopy session
      if rc ≠ 0 then return (-1, ms)
      return (0, { ms with sessions := ms.sessions ++ [copy] })

def memoryStoreGet (ms : MemoryStore) (id : Option CStr) : Prog Sys (Option Session × MemoryStore) :=
  match memoryStoreFind ms id with
  | none => pure (none, ms)
  | some idx => do
    let stored := ms.sessions[idx]
    if ← memoryStoreIsExpired stored then return (none, memoryStoreRemoveAt ms idx)
    if !(← malloc sizeofSession) then return (none, ms)
    let (rc, copy) ← sessionCopy stored
    if rc ≠ 0 then return (none, ms)
    return (some copy, ms)

def memoryStoreUpdate (ms : MemoryStore) (session : Session) : Prog Sys (Int × MemoryStore) :=
  if session.id = none then pure (-1, ms)
  else match memoryStoreFind ms session.id with
    | none => pure (-1, ms)
    | some idx => memoryStoreReplace ms idx session

def memoryStoreDelete (ms : MemoryStore) (id : Option CStr) : Int × MemoryStore :=
  match memoryStoreFind ms id with
  | none => (0, ms)
  | some idx => (0, memoryStoreRemoveAt ms idx)

/-- Copies of the given sessions, unless one of them fails. -/
def copyAll : List Session → Prog Sys (Option (List Session))
  | [] => pure (some [])
  | s :: rest => do
    let (rc, copy) ← sessionCopy s
    if rc ≠ 0 then return none
    match ← copyAll rest with
    | none => return none
    | some copies => return (some (copy :: copies))

def memoryStoreGetByUserId (ms : MemoryStore) (userId : Option CStr) :
    Prog Sys (Option (List Session) × MemoryStore) :=
  match userId with
  | none => pure (none, ms)
  | some userId => do
    let ms ← memoryStoreExpire ms
    let found := ms.sessions.filter fun s => s.userId == some userId
    if found.length = 0 then return (some [], ms)
    if !(← malloc (found.length * sizeofSession)) then return (none, ms)
    return (← copyAll found, ms)

def memoryStoreDeleteByUserId (ms : MemoryStore) (userId : Option CStr) : Prog Sys (Int × MemoryStore) :=
  match userId with
  | none => pure (0, ms)
  | some userId => do
    let ms ← memoryStoreSweep (fun s => pure (s.userId == some userId)) ms
    pure (0, ms)

/-- The memory store behind the store interface. -/
def memory : Impl Sys StoreSig MemoryStore
  | .create s, ms => memoryStoreCreate ms s
  | .get id, ms => memoryStoreGet ms id
  | .update s, ms => memoryStoreUpdate ms s
  | .delete id, ms => pure (memoryStoreDelete ms id)
  | .getByUserId userId, ms => memoryStoreGetByUserId ms userId
  | .deleteByUserId userId, ms => memoryStoreDeleteByUserId ms userId

end OpenDbsc
