/-
Blocks of memory, cell by cell.

A cell is `none` until it is written; a cell outside the block can be neither
read nor written. `b.Starts xs` says that the first cells of `b` hold `xs`:
a store further on keeps it, and a store in the next cell adds to it.
-/
import Mathlib.Data.List.Basic

namespace Records

/-- Cells, `none` where nothing was written yet. -/
abbrev Block (α : Type) := List (Option α)

namespace Block

variable {α : Type} {b b' : Block α} {xs ys : List α} {x : α} {i n : Nat}

/-- A new block of `n` cells. -/
def fresh (n : Nat) : Block α := List.replicate n none

/-- What cell `i` holds, if it is a cell that was written. -/
def load (b : Block α) (i : Nat) : Option α := (b[i]?).join

/-- The block with cell `i` written, if it has one. -/
def store (b : Block α) (i : Nat) (x : α) : Option (Block α) :=
  if i < b.length then some (b.set i (some x)) else none

/-- The block with `xs` written from cell `i` on, if it has room for them. -/
def storeAll (b : Block α) (i : Nat) : List α → Option (Block α)
  | [] => some b
  | x :: xs => (b.store i x).bind fun b => b.storeAll (i + 1) xs

/-- The block with `n` cells: the old ones it has room for, then new ones. -/
def resize (b : Block α) (n : Nat) : Block α := b.take n ++ fresh (n - b.length)

/-- The first cells hold `xs`. -/
def Starts (b : Block α) (xs : List α) : Prop := xs.map some <+: b

@[simp] theorem length_fresh : (fresh n : Block α).length = n := by simp [fresh]

@[simp] theorem length_resize : (b.resize n).length = n := by
  simp [resize]
  omega

theorem store_of_lt (h : i < b.length) : b.store i x = some (b.set i (some x)) := by simp [store, h]

theorem store_eq_some : b.store i x = some b' ↔ i < b.length ∧ b' = b.set i (some x) := by
  simp [store, eq_comm]

theorem load_store (h : b.store i x = some b') : b'.load i = some x := by
  obtain ⟨hlt, rfl⟩ := store_eq_some.mp h
  simp [load, hlt]

theorem lt_of_load (h : b.load i = some x) : i < b.length := by
  by_contra hge
  simp [load, List.getElem?_eq_none (Nat.not_lt.mp hge)] at h

theorem length_store (h : b.store i x = some b') : b'.length = b.length := by
  obtain ⟨-, rfl⟩ := store_eq_some.mp h
  simp

theorem store_eq_none : b.store i x = none ↔ b.length ≤ i := by
  simp [store]

theorem storeAll_append :
    b.storeAll i (xs ++ ys) = (b.storeAll i xs).bind fun b => b.storeAll (i + xs.length) ys := by
  induction xs generalizing b i with
  | nil => rfl
  | cons x xs ih =>
    have hadd : i + (xs.length + 1) = i + 1 + xs.length := by omega
    simp only [List.cons_append, storeAll, ih, List.length_cons, hadd, Option.bind_assoc]

/-- What does not fit is not written. -/
theorem storeAll_overflow (h : b.length < i + xs.length) (hi : i ≤ b.length) : b.storeAll i xs = none := by
  induction xs generalizing b i with
  | nil => simp at h; omega
  | cons x xs ih =>
    rw [storeAll]
    cases hs : b.store i x with
    | none => rfl
    | some b' =>
      have hlen := length_store hs
      obtain ⟨hlt, -⟩ := store_eq_some.mp hs
      rw [List.length_cons] at h
      exact ih (by omega) (by omega)

namespace Starts

theorem nil : b.Starts ([] : List α) := by simp [Starts]

theorem length_le (h : b.Starts xs) : xs.length ≤ b.length := by
  simpa using List.IsPrefix.length_le h

/-- What is read of the first cells. -/
theorem map_load (h : b.Starts xs) : (List.range xs.length).map b.load = xs.map some := by
  obtain ⟨rest, rfl⟩ := h
  refine List.ext_getElem (by simp) fun i hi _ => ?_
  have hlt : i < xs.length := by simpa using hi
  simp [load, List.getElem?_append_left, hlt]

/-- A store behind what the block starts with keeps it. -/
theorem store (h : b.Starts xs) (hi : xs.length ≤ i) (hs : b.store i x = some b') : b'.Starts xs := by
  obtain ⟨-, rfl⟩ := store_eq_some.mp hs
  obtain ⟨rest, rfl⟩ := h
  refine ⟨rest.set (i - xs.length) (some x), ?_⟩
  rw [List.set_append_right _ _ (by simpa using hi), List.length_map]

/-- The next cell, once written, is part of it. -/
theorem snoc (h : b.Starts xs) (hx : b.load xs.length = some x) : b.Starts (xs ++ [x]) := by
  obtain ⟨rest, rfl⟩ := h
  cases rest with
  | nil => simp [load] at hx
  | cons c rest =>
    have hc : c = some x := by simpa [load] using hx
    exact ⟨rest, by simp [hc]⟩

/-- What is written behind the first cells, if there is room for it, is part of them. -/
theorem storeAll (h : b.Starts xs) (hroom : xs.length + ys.length ≤ b.length) :
    ∃ b', b.storeAll xs.length ys = some b' ∧ b'.Starts (xs ++ ys) ∧ b'.length = b.length := by
  induction ys generalizing b xs with
  | nil => exact ⟨b, rfl, by rwa [List.append_nil], rfl⟩
  | cons y ys ih =>
    rw [List.length_cons] at hroom
    have hstore := store_of_lt (x := y) (show xs.length < b.length by omega)
    have hlen := length_store hstore
    have hnext := (h.store (Nat.le_refl _) hstore).snoc (load_store hstore)
    obtain ⟨b', hall, hstarts, hlen'⟩ := ih hnext (by simp; omega)
    refine ⟨b', ?_, by simpa using hstarts, hlen'.trans hlen⟩
    rw [List.length_append, List.length_singleton] at hall
    rw [Block.storeAll, hstore, Option.bind_some, hall]

theorem resize (h : b.Starts xs) (hn : b.length ≤ n) : (b.resize n).Starts xs := by
  unfold Block.resize
  rw [List.take_of_length_le hn]
  exact h.trans (List.prefix_append b _)

end Starts

end Block

end Records
