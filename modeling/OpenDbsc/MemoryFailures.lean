/-
The memory store when memory runs out.

A create or an update of a session that is stored frees the slot first and
copies into it then, so when the copy fails the old session is lost
(`write_loses_stored`). A failed write that found nothing to replace changes
nothing (`failed_write_iff`).
-/
import OpenDbsc.MemoryFacts

namespace OpenDbsc

open Effects Records Prog

section

variable {ms ms' : MemoryStore} {s : Session} {tr : List (Event Sys)} {rc : Int}

theorem memoryStoreFind_eq_none {id : Option CStr} :
    memoryStoreFind ms id = none ↔ id = none ∨ ∀ stored ∈ ms.sessions, stored.id ≠ id := by
  cases id with
  | none => exact iff_of_true rfl (.inl rfl)
  | some id =>
    unfold memoryStoreFind
    rw [List.findFinIdx?_eq_none_iff]
    simp

theorem memoryStoreFind_id {id : Option CStr} {idx : Fin ms.sessions.length} (h : memoryStoreFind ms id = some idx) :
    (ms.sessions.get idx).id = id ∧ id ≠ none := by
  unfold memoryStoreFind at h
  cases id with
  | none => cases h
  | some id => exact ⟨eq_of_beq (List.findFinIdx?_eq_some_iff.mp h).1, nofun⟩

/-- Growing fails exactly when its allocation does, and moves no session. -/
theorem memoryStoreGrow_sessions :
    Ensures (memoryStoreGrow ms) fun r => r.2.sessions = ms.sessions := by
  unfold memoryStoreGrow
  split
  · exact Ensures.pure rfl
  · refine Ensures.bind_any fun b => ?_
    split <;> exact Ensures.pure rfl

/-- A create of a session that is not stored adds it, or changes nothing. -/
theorem memoryStoreCreate_new (hf : memoryStoreFind ms s.id = none) :
    Ensures (memoryStoreCreate ms s) fun r => r.1 ≠ 0 → r.2.sessions = ms.sessions := by
  unfold memoryStoreCreate
  split
  · exact Ensures.pure fun _ => rfl
  · rw [hf]
    refine Ensures.bind memoryStoreGrow_sessions fun (rc, ms₁) hgrow => ?_
    simp only
    split
    · exact Ensures.pure fun _ => hgrow
    · refine Ensures.bind_any fun (rc, copy) => ?_
      simp only
      split
      · exact Ensures.pure fun _ => hgrow
      · exact Ensures.pure fun h => absurd rfl h

/-- A replacement fails exactly when an allocation does, and then leaves the slot blank. -/
theorem memoryStoreReplace_fails (idx : Nat) (h : Trace (memoryStoreReplace ms idx s) tr (rc, ms')) :
    (Obeys allocOk tr ∧ rc = 0) ∨
      (¬ Obeys allocOk tr ∧ rc = -1 ∧ ms' = { ms with sessions := ms.sessions.set idx sessionInit }) := by
  unfold memoryStoreReplace at h
  obtain ⟨tr₁, ⟨code, copy⟩, tr₂, rfl, hcopy, h⟩ := trace_bind.mp h
  have hreports : code = 0 ↔ Obeys allocOk tr₁ := (reports_sessionCopy s).any hcopy
  simp only at h
  split at h
  · rename_i hcode
    obtain ⟨rfl, heq⟩ := trace_pure.mp h
    obtain ⟨rfl, rfl⟩ := Prod.mk.inj heq
    rw [List.append_nil, ← hreports]
    exact .inr ⟨hcode, rfl, rfl⟩
  · rename_i hcode
    obtain ⟨rfl, heq⟩ := trace_pure.mp h
    obtain ⟨rfl, rfl⟩ := Prod.mk.inj heq
    rw [List.append_nil, ← hreports]
    exact .inl ⟨not_not.mp hcode, rfl⟩

/-- A create or update of a stored session replaces it. -/
theorem memoryStoreWrite_stored {p : Prog Sys (Int × MemoryStore)}
    (hp : p = memoryStoreCreate ms s ∨ p = memoryStoreUpdate ms s) {idx : Fin ms.sessions.length}
    (hf : memoryStoreFind ms s.id = some idx) : p = memoryStoreReplace ms idx s := by
  have hid : s.id ≠ none := (memoryStoreFind_id hf).2
  rcases hp with rfl | rfl
  · rw [memoryStoreCreate, if_neg hid, hf]
  · rw [memoryStoreUpdate, if_neg hid, hf]

/-- A create or update that finds nothing to replace, and fails. -/
theorem memoryStoreWrite_new {p : Prog Sys (Int × MemoryStore)}
    (hp : p = memoryStoreCreate ms s ∨ p = memoryStoreUpdate ms s) (hf : memoryStoreFind ms s.id = none) :
    Ensures p fun r => r.1 ≠ 0 → r.2.sessions = ms.sessions := by
  rcases hp with rfl | rfl
  · exact memoryStoreCreate_new hf
  · unfold memoryStoreUpdate
    rw [hf]
    split <;> exact Ensures.pure fun _ => rfl

theorem set_blank_ne {idx : Fin ms.sessions.length} (hid : (ms.sessions.get idx).id ≠ none) :
    ms.sessions.set idx sessionInit ≠ ms.sessions := by
  intro heq
  have hslot : (ms.sessions.set idx sessionInit)[idx.val]? = ms.sessions[idx.val]? := by rw [heq]
  rw [List.getElem?_set_self idx.isLt, List.getElem?_eq_getElem idx.isLt] at hslot
  have hblank : sessionInit = ms.sessions[idx.val] := Option.some.inj hslot
  exact hid (congrArg Session.id hblank).symm

/-- **When a failed write changes nothing**: exactly when no session of that id
is stored, or no allocation of the call fails. -/
theorem failed_write_iff {p : Prog Sys (Int × MemoryStore)}
    (hp : p = memoryStoreCreate ms s ∨ p = memoryStoreUpdate ms s) (h : Trace p tr (rc, ms')) :
    (rc = -1 → ms'.sessions = ms.sessions) ↔
      (s.id = none ∨ ∀ stored ∈ ms.sessions, stored.id ≠ s.id) ∨ Obeys allocOk tr := by
  rw [← memoryStoreFind_eq_none]
  cases hf : memoryStoreFind ms s.id with
  | none =>
    refine iff_of_true (fun hrc => memoryStoreWrite_new hp hf tr _ h ?_) (.inl rfl)
    rw [hrc]
    exact nofun
  | some idx =>
    rw [memoryStoreWrite_stored hp hf] at h
    obtain ⟨hid, hne⟩ := memoryStoreFind_id hf
    rcases memoryStoreReplace_fails idx h with ⟨hobeys, rfl⟩ | ⟨hfails, rfl, rfl⟩
    · exact iff_of_true nofun (.inr hobeys)
    · refine iff_of_false (fun hsame => ?_) (by simpa using hfails)
      exact set_blank_ne (hid ▸ hne) (hsame rfl)

end

/-- Every allocation fails. -/
def noMemory (_ : Nat) : (o : Sys.Op) → Option (Sys.Ans o)
  | .malloc _ => some false
  | .library => some false
  | _ => none

/-- A session of another id. -/
def otherToTen : Session := { sessionToTen with id := some "b".toList }

/-- A create without memory, of a session that is not stored: the stored one stays. -/
theorem failed_write_new : ∃ tr ms', follow noMemory 0 (memoryStoreCreate ⟨[otherToTen], 8⟩ sessionToTen) =
    some (tr, -1, ms') ∧ ms'.sessions = [otherToTen] := by
  have hcreate : follow noMemory 0 (memoryStoreCreate ⟨[otherToTen], 8⟩ sessionToTen) =
    some (_, -1, ⟨[otherToTen], 8⟩) := rfl
  have hother : ∀ stored ∈ [otherToTen], stored.id ≠ sessionToTen.id := by
    intro stored hmem
    rw [List.mem_singleton.mp hmem]
    decide
  exact ⟨_, _, hcreate, (failed_write_iff (.inl rfl) (trace_follow hcreate)).mpr (.inl (.inr hother)) rfl⟩

/-- An update without memory loses the session it was to replace. -/
theorem write_loses_stored : ¬ ∀ (ms ms' : MemoryStore) (s : Session) (p : Prog Sys (Int × MemoryStore)) (tr : List (Event Sys))
    (rc : Int), p = memoryStoreCreate ms s ∨ p = memoryStoreUpdate ms s → Trace p tr (rc, ms') →
    rc = -1 → ms'.sessions = ms.sessions := by
  intro h
  have hupdate : follow noMemory 0 (memoryStoreUpdate ⟨[sessionToTen], 8⟩ sessionToTen) =
    some (_, -1, ⟨[sessionInit], 8⟩) := rfl
  have hsame := h ⟨[sessionToTen], 8⟩ ⟨[sessionInit], 8⟩ sessionToTen _ _ (-1) (.inr rfl) (trace_follow hupdate) rfl
  cases hsame

end OpenDbsc
