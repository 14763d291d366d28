/-
Finite maps kept as their records, and arrays that represent them.

`Table key` is a multiset of records no two of which have the same key: the
map from keys to records, when the key is part of the record. Two tables
with the same lookups are equal, and `insert`, `erase` and `filter` are
described by the lookups they leave.

`swapRemove` takes an element out of an array by moving the last one into
its place. Read as a table, that is `erase`; overwriting a record with one
of the same key is `insert`, and so is appending a record with a new key.
-/
import Mathlib.Data.Multiset.Filter
import Mathlib.Data.List.Perm.Basic

namespace Records

variable {β κ : Type}

/-- Records, no two with the same key. -/
@[ext] structure Table (key : β → κ) where
  rows : Multiset β
  nodup : (rows.map key).Nodup

namespace Table

variable {key : β → κ}

def empty : Table key := ⟨0, Multiset.nodup_zero⟩

theorem unique {t : Table key} {a b : β} (ha : a ∈ t.rows) (hb : b ∈ t.rows) (h : key a = key b) : a = b :=
  Multiset.inj_on_of_nodup_map t.nodup a ha b hb h

open Classical in
/-- The record with key `k`. -/
noncomputable def lookup (t : Table key) (k : κ) : Option β :=
  if h : ∃ b ∈ t.rows, key b = k then some h.choose else none

theorem lookup_eq_some {t : Table key} {k : κ} {b : β} : t.lookup k = some b ↔ b ∈ t.rows ∧ key b = k := by
  unfold lookup
  split
  · rename_i h
    obtain ⟨hmem, hkey⟩ := h.choose_spec
    constructor
    · intro hb
      rw [Option.some_inj] at hb
      exact hb ▸ ⟨hmem, hkey⟩
    · intro ⟨hb, hk⟩
      rw [unique hmem hb (hkey.trans hk.symm)]
  · rename_i h
    constructor
    · intro hb; cases hb
    · intro ⟨hb, hk⟩; exact absurd ⟨b, hb, hk⟩ h

theorem lookup_eq_none {t : Table key} {k : κ} : t.lookup k = none ↔ ∀ b ∈ t.rows, key b ≠ k := by
  rw [Option.eq_none_iff_forall_ne_some]
  constructor
  · intro h b hb hk; exact h b (lookup_eq_some.mpr ⟨hb, hk⟩)
  · intro h b hb
    obtain ⟨hmem, hk⟩ := lookup_eq_some.mp hb
    exact h b hmem hk

theorem lookup_mem {t : Table key} {k : κ} {b : β} (h : t.lookup k = some b) : b ∈ t.rows :=
  (lookup_eq_some.mp h).1

theorem lookup_key {t : Table key} {k : κ} {b : β} (h : t.lookup k = some b) : key b = k :=
  (lookup_eq_some.mp h).2

theorem lookup_of_mem {t : Table key} {b : β} (h : b ∈ t.rows) : t.lookup (key b) = some b :=
  lookup_eq_some.mpr ⟨h, rfl⟩

@[simp] theorem lookup_empty (k : κ) : (empty : Table key).lookup k = none :=
  lookup_eq_none.mpr fun _ hb => absurd hb (Multiset.notMem_zero _)

/-! ## Filtering, removing and inserting -/

def filter (t : Table key) (p : β → Prop) [DecidablePred p] : Table key :=
  ⟨t.rows.filter p, Multiset.nodup_of_le (Multiset.map_le_map (Multiset.filter_le p t.rows)) t.nodup⟩

@[simp] theorem mem_filter {t : Table key} {p : β → Prop} [DecidablePred p] {b : β} :
    b ∈ (t.filter p).rows ↔ b ∈ t.rows ∧ p b :=
  Multiset.mem_filter

theorem lookup_filter {t : Table key} {p : β → Prop} [DecidablePred p] {k : κ} {b : β} :
    (t.filter p).lookup k = some b ↔ t.lookup k = some b ∧ p b := by
  simp only [lookup_eq_some, mem_filter]
  tauto

theorem filter_eq_self {t : Table key} {p : β → Prop} [DecidablePred p] (h : ∀ b ∈ t.rows, p b) :
    t.filter p = t :=
  Table.ext (Multiset.filter_eq_self.mpr h)

section erase

variable [DecidableEq κ]

def erase (t : Table key) (k : κ) : Table key := t.filter fun b => key b ≠ k

@[simp] theorem mem_erase {t : Table key} {k : κ} {b : β} :
    b ∈ (t.erase k).rows ↔ b ∈ t.rows ∧ key b ≠ k :=
  mem_filter

@[simp] theorem lookup_erase_self (t : Table key) (k : κ) : (t.erase k).lookup k = none :=
  lookup_eq_none.mpr fun _ hb => (mem_erase.mp hb).2

theorem lookup_erase_of_ne {t : Table key} {k k' : κ} (h : k' ≠ k) : (t.erase k).lookup k' = t.lookup k' := by
  refine Option.ext fun b => ?_
  rw [erase, lookup_filter]
  constructor
  · intro hb; exact hb.1
  · intro hb; exact ⟨hb, fun hk => h (lookup_key hb ▸ hk)⟩

/-- Taking a record out of a table leaves the records beside it. -/
theorem erase_rows {t : Table key} {b : β} {rows : Multiset β} (h : b ::ₘ rows = t.rows) :
    (t.erase (key b)).rows = rows := by
  have hnd := t.nodup
  rw [← h, Multiset.map_cons, Multiset.nodup_cons, Multiset.mem_map] at hnd
  simp only [erase, filter]
  rw [← h, Multiset.filter_cons_of_neg _ (by simp), Multiset.filter_eq_self]
  intro a ha hk
  exact hnd.1 ⟨a, ha, hk⟩

theorem erase_of_lookup_none {t : Table key} {k : κ} (h : t.lookup k = none) : t.erase k = t :=
  filter_eq_self (lookup_eq_none.mp h)

def insert (t : Table key) (b : β) : Table key where
  rows := b ::ₘ (t.erase (key b)).rows
  nodup := by
    rw [Multiset.map_cons, Multiset.nodup_cons, Multiset.mem_map]
    refine ⟨?_, (t.erase (key b)).nodup⟩
    intro ⟨a, ha, hk⟩
    exact (mem_erase.mp ha).2 hk

theorem insert_rows (t : Table key) (b : β) : (t.insert b).rows = b ::ₘ (t.erase (key b)).rows := rfl

@[simp] theorem mem_insert {t : Table key} {a b : β} :
    a ∈ (t.insert b).rows ↔ a = b ∨ a ∈ t.rows ∧ key a ≠ key b := by
  simp only [insert_rows, Multiset.mem_cons, mem_erase]

@[simp] theorem lookup_insert_self (t : Table key) (b : β) : (t.insert b).lookup (key b) = some b :=
  lookup_of_mem (mem_insert.mpr (.inl rfl))

theorem lookup_insert_of_ne {t : Table key} {b : β} {k : κ} (h : k ≠ key b) :
    (t.insert b).lookup k = t.lookup k := by
  refine Option.ext fun a => ?_
  simp only [lookup_eq_some, mem_insert]
  constructor
  · intro ⟨hmem, hk⟩
    rcases hmem with rfl | hmem
    · exact absurd hk.symm h
    · exact ⟨hmem.1, hk⟩
  · intro ⟨hmem, hk⟩
    exact ⟨.inr ⟨hmem, hk ▸ h⟩, hk⟩

end erase

/-! ## Arrays -/

/-- The array's records are the table's. -/
def Lists (xs : List β) (t : Table key) : Prop := (xs : Multiset β) = t.rows

namespace Lists

variable {xs : List β} {t : Table key}

theorem mem_iff (h : Lists xs t) {b : β} : b ∈ xs ↔ b ∈ t.rows := by
  rw [← h, Multiset.mem_coe]

theorem nodup_keys (h : Lists xs t) : (xs.map key).Nodup := by
  have ht := t.nodup
  rwa [← h, Multiset.map_coe, Multiset.coe_nodup] at ht

theorem eq {t' : Table key} (h : Lists xs t) (h' : Lists xs t') : t = t' := Table.ext (h.symm.trans h')

theorem perm {ys : List β} (h : Lists xs t) (hp : ys.Perm xs) : Lists ys t :=
  (Multiset.coe_eq_coe.mpr hp).trans h

theorem lookup_getElem (h : Lists xs t) {i : Nat} (hi : i < xs.length) : t.lookup (key xs[i]) = some xs[i] :=
  lookup_of_mem (h.mem_iff.mp (List.getElem_mem hi))

theorem filter (h : Lists xs t) (p : β → Prop) [DecidablePred p] : Lists (xs.filter p) (t.filter p) := by
  unfold Lists at h ⊢
  simp only [Table.filter, ← h, Multiset.filter_coe]

end Lists

end Table

/-! ## Removal by swapping -/

/-- The last element moved into slot `i`, and the array one shorter. -/
def swapRemove (xs : List β) (i : Nat) : List β :=
  match xs.getLast? with
  | none => xs
  | some last => (xs.set i last).dropLast

theorem swapRemove_concat (ys : List β) (last : β) (i : Nat) :
    swapRemove (ys ++ [last]) i = ys.set i last := by
  simp only [swapRemove, List.getLast?_concat]
  by_cases hi : i < ys.length
  · rw [List.set_append_left _ _ hi, List.dropLast_concat]
  · have hlast : [last].set (i - ys.length) last = [last] := by cases i - ys.length <;> rfl
    rw [List.set_append_right _ _ (by omega), hlast, List.dropLast_concat, List.set_eq_of_length_le (by omega)]

theorem length_swapRemove {xs : List β} {i : Nat} (h : i < xs.length) :
    (swapRemove xs i).length = xs.length - 1 := by
  rcases List.eq_nil_or_concat xs with rfl | ⟨ys, last, rfl⟩
  · simp at h
  · rw [List.concat_eq_append, swapRemove_concat]
    simp

theorem take_swapRemove {xs : List β} {i : Nat} (h : i < xs.length) :
    (swapRemove xs i).take i = xs.take i := by
  rcases List.eq_nil_or_concat xs with rfl | ⟨ys, last, rfl⟩
  · simp at h
  · have hi : i ≤ ys.length := by simp at h; omega
    rw [List.concat_eq_append, swapRemove_concat, List.take_set_of_le (Nat.le_refl i),
      List.take_append_of_le_length hi]

/-- **Swap-removal takes out exactly one element.** -/
theorem swapRemove_perm {xs : List β} {i : Nat} (h : i < xs.length) : (xs[i] :: swapRemove xs i).Perm xs := by
  rcases List.eq_nil_or_concat xs with rfl | ⟨ys, last, rfl⟩
  · simp at h
  · simp only [List.concat_eq_append] at h ⊢
    rw [swapRemove_concat]
    by_cases hi : i < ys.length
    · rw [List.getElem_append_left hi]
      calc (ys[i] :: ys.set i last).Perm (ys[i] :: last :: ys.eraseIdx i) :=
            (List.set_perm_cons_eraseIdx hi last).cons _
        _ |>.Perm (last :: ys[i] :: ys.eraseIdx i) := .swap ..
        _ |>.Perm (last :: ys) := (List.getElem_cons_eraseIdx_perm hi).cons _
        _ |>.Perm (ys ++ [last]) := (List.perm_append_singleton last ys).symm
    · have hlast : i = ys.length := by simp at h; omega
      subst hlast
      rw [List.set_eq_of_length_le (Nat.le_refl _), List.getElem_concat_length rfl]
      exact (List.perm_append_singleton last ys).symm

/-- What is left behind slot `i` is a reordering of what was there. -/
theorem drop_swapRemove_perm {xs : List β} {i : Nat} (h : i < xs.length) :
    ((swapRemove xs i).drop i).Perm (xs.drop (i + 1)) := by
  have hperm := swapRemove_perm h
  have hx : xs[i] :: xs.drop (i + 1) = xs.drop i := (List.drop_eq_getElem_cons h).symm
  rw [← List.take_append_drop i (swapRemove xs i), take_swapRemove h] at hperm
  rw [← List.perm_cons xs[i], hx, ← List.perm_append_left_iff (xs.take i), List.take_append_drop]
  exact List.perm_middle.trans hperm

namespace Table.Lists

variable [DecidableEq κ] {key : β → κ} {xs : List β} {t : Table key}

theorem swapRemove (h : Lists xs t) {i : Nat} (hi : i < xs.length) :
    Lists (swapRemove xs i) (t.erase (key xs[i])) := by
  refine (erase_rows ?_).symm
  exact (Multiset.coe_eq_coe.mpr (swapRemove_perm hi)).trans h

theorem set (h : Lists xs t) {i : Nat} (hi : i < xs.length) {b : β} (hb : key b = key xs[i]) :
    Lists (xs.set i b) (t.insert b) := by
  have hrows : (t.erase (key b)).rows = xs.eraseIdx i := by
    rw [hb]
    exact erase_rows ((Multiset.coe_eq_coe.mpr (List.getElem_cons_eraseIdx_perm hi)).trans h)
  unfold Lists
  rw [insert_rows, hrows, Multiset.cons_coe, Multiset.coe_eq_coe]
  exact List.set_perm_cons_eraseIdx hi b

/-- The record of a key replaced, wherever it is. -/
theorem replace (h : Lists xs t) {a b : β} (ha : a ∈ xs) (hab : key a = key b) :
    Lists (xs.map fun c => if key c = key b then b else c) (t.insert b) := by
  obtain ⟨i, hi, rfl⟩ := List.getElem_of_mem ha
  have hset : (xs.map fun c => if key c = key b then b else c) = xs.set i b := by
    refine List.ext_getElem (by simp) fun j hj _ => ?_
    rw [List.length_map] at hj
    rw [List.getElem_map, List.getElem_set]
    by_cases hij : i = j
    · subst hij
      rw [if_pos hab, if_pos rfl]
    · rw [if_neg hij, if_neg]
      intro hkey
      refine hij ((@List.Nodup.getElem_inj_iff _ _ h.nodup_keys i (by simpa) j (by simpa)).mp ?_)
      rw [List.getElem_map, List.getElem_map, hkey, hab]
  rw [hset]
  exact h.set hi hab.symm

theorem concat (h : Lists xs t) {b : β} (hb : t.lookup (key b) = none) : Lists (xs ++ [b]) (t.insert b) := by
  unfold Lists at h ⊢
  rw [insert_rows, erase_of_lookup_none hb, ← h, Multiset.cons_coe, Multiset.coe_eq_coe]
  exact List.perm_append_singleton b xs

end Table.Lists

end Records
