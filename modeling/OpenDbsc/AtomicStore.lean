/-
The memory store with its calls atomic: each is carried out whole, with the
memory it asks for, or is refused and changes nothing.

Its own events are left out, so what a request does against it is a trace of
the request alone.
-/
import OpenDbsc.MemoryFacts

namespace OpenDbsc

open Effects Records Prog

/-- The answer to a call that is refused. -/
def StoreOp.refusal : (o : StoreOp) → StoreOp.Ans o
  | .create _ => -1
  | .get _ => none
  | .update _ => -1
  | .delete _ => -1
  | .getByUserId _ => none
  | .deleteByUserId _ => -1

def atomicStore : Comp Sys StoreSig MemoryStore := fun o ms tr x ms' =>
  tr = [] ∧ ((∃ tr', memory.comp o ms tr' x ms' ∧ Obeys allocOk tr') ∨ (x = o.refusal ∧ ms' = ms))

/-- Carried out, with the clock at some value, or refused. -/
def SessionMap.Atomic (m : SessionMap) (o : StoreOp) (x : StoreOp.Ans o) (m' : SessionMap) : Prop :=
  (∃ now, m.Answers now o x m') ∨ (x = o.refusal ∧ m' = m)

/-- The map a store stands for, with its calls atomic. -/
def atomicMap : Comp Sys StoreSig SessionMap := fun o m tr x m' => tr = [] ∧ m.Atomic o x m'

/-- **The atomic store refines the map.** -/
theorem MemoryStore.Represents.atomic {ms ms' : MemoryStore} {m : SessionMap} (hR : ms.Represents m) {o : StoreOp}
    {tr : List (Event Sys)} {x : StoreOp.Ans o} (h : atomicStore o ms tr x ms') :
    ∃ m', atomicMap o m tr x m' ∧ ms'.Represents m' := by
  obtain ⟨rfl, ⟨tr', hcall, halloc⟩ | ⟨rfl, rfl⟩⟩ := h
  · obtain ⟨m', ⟨-, now, -, hans⟩, hR'⟩ := hR.call hcall halloc
    exact ⟨m', ⟨rfl, .inl ⟨now, hans⟩⟩, hR'⟩
  · exact ⟨m, ⟨rfl, .inr ⟨rfl, rfl⟩⟩, hR⟩

namespace SessionMap.Atomic

variable {m m' : SessionMap}

theorem create {s : Session} {code : Int} (h : m.Atomic (.create s) code m') :
    (code = 0 ∧ s.id ≠ none ∧ m' = m.insert s) ∨ (code ≠ 0 ∧ m' = m) := by
  have hrefused : (-1 : Int) ≠ 0 := by decide
  rcases h with ⟨now, hans⟩ | ⟨rfl, rfl⟩
  · cases hid : s.id with
    | none =>
      simp only [Answers, hid] at hans
      obtain ⟨rfl, rfl⟩ := hans
      exact .inr ⟨hrefused, rfl⟩
    | some id =>
      simp only [Answers, hid] at hans
      exact .inl ⟨hans.1, Option.some_ne_none id, hans.2⟩
  · exact .inr ⟨hrefused, rfl⟩

theorem get {id : Option CStr} {out : Option Session} (h : m.Atomic (.get id) out m') :
    (∃ s, out = some s ∧ m.lookup id = some s ∧ m' = m) ∨ (out = none ∧ (m' = m ∨ m' = m.erase id)) := by
  rcases h with ⟨now, hans⟩ | ⟨rfl, rfl⟩
  · cases hl : m.lookup id with
    | none =>
      simp only [Answers, hl] at hans
      exact .inr ⟨hans.1, .inl hans.2⟩
    | some s =>
      simp only [Answers, hl] at hans
      split at hans
      · exact .inr ⟨hans.1, .inr hans.2⟩
      · exact .inl ⟨s, hans.1, rfl, hans.2⟩
  · exact .inr ⟨rfl, .inl rfl⟩

theorem update {s : Session} {code : Int} (h : m.Atomic (.update s) code m') :
    (code = 0 ∧ m.lookup s.id ≠ none ∧ m' = m.insert s) ∨ (code ≠ 0 ∧ m' = m) := by
  have hrefused : (-1 : Int) ≠ 0 := by decide
  rcases h with ⟨now, hans⟩ | ⟨rfl, rfl⟩
  · cases hl : m.lookup s.id with
    | none =>
      simp only [Answers, hl] at hans
      obtain ⟨rfl, rfl⟩ := hans
      exact .inr ⟨hrefused, rfl⟩
    | some old =>
      simp only [Answers, hl] at hans
      exact .inl ⟨hans.1, Option.some_ne_none old, hans.2⟩
  · exact .inr ⟨hrefused, rfl⟩

theorem delete {id : Option CStr} {code : Int} (h : m.Atomic (.delete id) code m') : m' = m ∨ m' = m.erase id := by
  rcases h with ⟨now, hans⟩ | ⟨-, rfl⟩
  · exact .inr hans.2
  · exact .inl rfl

/-- A row is one there was, or one that has just been written. -/
theorem rows {o : StoreOp} {x : StoreOp.Ans o} (h : m.Atomic o x m') {s : Session} (hs : s ∈ m'.rows) :
    s ∈ m.rows ∨ (⟨o, x⟩ : Event StoreSig) = ⟨.create s, (0 : Int)⟩ ∨
      (⟨o, x⟩ : Event StoreSig) = ⟨.update s, (0 : Int)⟩ := by
  cases o with
  | create s₁ =>
    obtain ⟨rfl, -, rfl⟩ | ⟨-, rfl⟩ := h.create
    · rcases Table.mem_insert.mp hs with rfl | ⟨hs, -⟩
      · exact .inr (.inl rfl)
      · exact .inl hs
    · exact .inl hs
  | get id =>
    left
    obtain ⟨-, -, -, rfl⟩ | ⟨-, rfl | rfl⟩ := h.get
    · exact hs
    · exact hs
    · exact (Table.mem_erase.mp hs).1
  | update s₁ =>
    obtain ⟨rfl, -, rfl⟩ | ⟨-, rfl⟩ := h.update
    · rcases Table.mem_insert.mp hs with rfl | ⟨hs, -⟩
      · exact .inr (.inr rfl)
      · exact .inl hs
    · exact .inl hs
  | delete id =>
    left
    obtain rfl | rfl := h.delete
    · exact hs
    · exact (Table.mem_erase.mp hs).1
  | getByUserId userId =>
    left
    rcases h with ⟨now, hans⟩ | ⟨-, rfl⟩
    · cases userId with
      | none => exact hans.2 ▸ hs
      | some user =>
        rw [hans.1] at hs
        exact (Table.mem_filter.mp hs).1
    · exact hs
  | deleteByUserId userId =>
    left
    rcases h with ⟨now, hans⟩ | ⟨-, rfl⟩
    · cases userId with
      | none => exact hans.2 ▸ hs
      | some user =>
        rw [hans.2] at hs
        exact (Table.mem_filter.mp hs).1
    · exact hs

end SessionMap.Atomic

/-! ## The store at work -/

/-- The store that carries out what it is asked. -/
def atomicServer (o : StoreOp) (ms : MemoryStore) : StoreOp.Ans o × MemoryStore :=
  match follow clockEleven 0 (memory o ms) with
  | some (_, x, ms') => (x, ms')
  | none => (o.refusal, ms)

theorem atomicServer_answers (o : StoreOp) (ms : MemoryStore) :
    atomicStore o ms [] (atomicServer o ms).1 (atomicServer o ms).2 := by
  refine ⟨rfl, ?_⟩
  unfold atomicServer
  split
  · rename_i tr x ms' hplay
    exact .inl ⟨tr, trace_follow hplay, obeys_follow clockEleven_allocOk hplay⟩
  · exact .inr ⟨rfl, rfl⟩

end OpenDbsc
