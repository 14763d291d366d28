/-
Assertions about the blocks of a heap.

An assertion is the set of the parts of a heap it allows. `P * Q` allows a part
that splits into one of `P` and one of `Q`, with no block in both; `1` allows
the empty part alone. Assertions are a commutative quantale: `⨆ x, P x` is the
existential, `⨆ _ : φ, P` says `φ` besides, and both distribute over `*`. As
`1` allows no block, an assertion that holds of a whole heap accounts for every
block there is.
-/
import Mathlib.Algebra.BigOperators.Group.List.Basic
import Mathlib.Algebra.Order.Quantale
import Mathlib.Data.Set.Lattice
import Mathlib.Order.CompletePartialOrder

namespace Heaps

/-- Some blocks of a heap, by address. -/
abbrev Part (β : Type) := Nat → Option β

namespace Part

variable {β : Type} {f g k : Part β} {a : Nat}

def empty : Part β := fun _ => none

def single (a : Nat) (v : β) : Part β := fun b => if b = a then some v else none

/-- No address is in both. -/
def Disjoint (f g : Part β) : Prop := ∀ a, f a = none ∨ g a = none

def union (f g : Part β) : Part β := fun a => (f a).or (g a)

theorem Disjoint.symm (h : f.Disjoint g) : g.Disjoint f := fun a => (h a).symm

theorem union_eq_none : f.union g a = none ↔ f a = none ∧ g a = none := Option.or_eq_none_iff

@[simp] theorem empty_union (f : Part β) : empty.union f = f := rfl

@[simp] theorem union_empty (f : Part β) : f.union empty = f := funext fun _ => Option.or_none

theorem union_assoc (f g k : Part β) : (f.union g).union k = f.union (g.union k) := funext fun _ => Option.or_assoc

theorem union_comm (h : f.Disjoint g) : f.union g = g.union f := by
  funext a
  rcases h a with hf | hg
  · simp [union, hf]
  · simp [union, hg]

theorem disjoint_union_left : (f.union g).Disjoint k ↔ f.Disjoint k ∧ g.Disjoint k := by
  constructor
  · intro h
    exact ⟨fun a => (h a).imp_left fun hn => (union_eq_none.mp hn).1, fun a => (h a).imp_left fun hn => (union_eq_none.mp hn).2⟩
  · intro h a
    rcases h.1 a with hf | hk
    · exact (h.2 a).imp_left fun hg => union_eq_none.mpr ⟨hf, hg⟩
    · exact .inr hk

theorem disjoint_union_right : k.Disjoint (f.union g) ↔ k.Disjoint f ∧ k.Disjoint g := by
  constructor
  · intro h
    obtain ⟨hf, hg⟩ := disjoint_union_left.mp h.symm
    exact ⟨hf.symm, hg.symm⟩
  · intro h
    exact (disjoint_union_left.mpr ⟨h.1.symm, h.2.symm⟩).symm

theorem empty_disjoint (f : Part β) : empty.Disjoint f := fun _ => .inl rfl

@[simp] theorem single_self (a : Nat) (v : β) : single a v a = some v := if_pos rfl

theorem single_of_ne {b : Nat} (h : b ≠ a) (v : β) : single a v b = none := if_neg h

theorem Disjoint.single_left {v : β} (h : (single a v).Disjoint f) : f a = none := by
  rcases h a with ha | ha
  · rw [single_self] at ha
    cases ha
  · exact ha

theorem disjoint_single {v : β} (h : f a = none) : (single a v).Disjoint f := by
  intro b
  by_cases hb : b = a
  · exact .inr (hb ▸ h)
  · exact .inl (single_of_ne hb v)

end Part

def Assertion (β : Type) := Set (Part β)

namespace Assertion

variable {β : Type} {P Q R : Assertion β}

instance : CompleteLattice (Assertion β) := inferInstanceAs (CompleteLattice (Set (Part β)))

instance : Membership (Part β) (Assertion β) := inferInstanceAs (Membership (Part β) (Set (Part β)))

instance : One (Assertion β) := ⟨({Part.empty} : Set (Part β))⟩

instance : Mul (Assertion β) := ⟨fun P Q => { h : Part β | ∃ f ∈ P, ∃ g ∈ Q, f.Disjoint g ∧ h = f.union g }⟩

theorem mem_one {h : Part β} : h ∈ (1 : Assertion β) ↔ h = Part.empty := Iff.rfl

theorem mem_mul {h : Part β} : h ∈ P * Q ↔ ∃ f ∈ P, ∃ g ∈ Q, f.Disjoint g ∧ h = f.union g := Iff.rfl

theorem le_def : P ≤ Q ↔ ∀ h : Part β, h ∈ P → h ∈ Q := Iff.rfl

theorem mem_iSup {ι : Sort*} {P : ι → Assertion β} {h : Part β} : h ∈ (⨆ i, P i) ↔ ∃ i, h ∈ P i := Set.mem_iUnion

theorem mem_sSup {s : Set (Assertion β)} {h : Part β} : h ∈ sSup s ↔ ∃ P ∈ s, h ∈ P := Set.mem_sUnion

protected theorem ext (h : ∀ f : Part β, f ∈ P ↔ f ∈ Q) : P = Q := Set.ext h

protected theorem mul_comm (P Q : Assertion β) : P * Q = Q * P := by
  refine Assertion.ext fun h => ?_
  constructor
  · intro hh
    obtain ⟨f, hf, g, hg, hd, rfl⟩ := hh
    exact ⟨g, hg, f, hf, hd.symm, Part.union_comm hd⟩
  · intro hh
    obtain ⟨f, hf, g, hg, hd, rfl⟩ := hh
    exact ⟨g, hg, f, hf, hd.symm, Part.union_comm hd⟩

protected theorem one_mul (P : Assertion β) : 1 * P = P := by
  refine Assertion.ext fun h => ?_
  constructor
  · intro hh
    obtain ⟨f, hf, g, hg, -, rfl⟩ := hh
    rw [mem_one.mp hf, Part.empty_union]
    exact hg
  · intro hh
    exact ⟨Part.empty, rfl, h, hh, Part.empty_disjoint h, rfl⟩

protected theorem mul_assoc (P Q R : Assertion β) : P * Q * R = P * (Q * R) := by
  refine Assertion.ext fun h => ?_
  constructor
  · intro hh
    obtain ⟨_, ⟨f, hf, g, hg, hfg, rfl⟩, k, hk, hd, rfl⟩ := hh
    obtain ⟨hfk, hgk⟩ := Part.disjoint_union_left.mp hd
    exact ⟨f, hf, g.union k, ⟨g, hg, k, hk, hgk, rfl⟩, Part.disjoint_union_right.mpr ⟨hfg, hfk⟩, Part.union_assoc f g k⟩
  · intro hh
    obtain ⟨f, hf, _, ⟨g, hg, k, hk, hgk, rfl⟩, hd, rfl⟩ := hh
    obtain ⟨hfg, hfk⟩ := Part.disjoint_union_right.mp hd
    exact ⟨f.union g, ⟨f, hf, g, hg, hfg, rfl⟩, k, hk, Part.disjoint_union_left.mpr ⟨hfk, hgk⟩,
      (Part.union_assoc f g k).symm⟩

instance : CommMonoid (Assertion β) where
  mul_assoc := Assertion.mul_assoc
  one_mul := Assertion.one_mul
  mul_one P := (Assertion.mul_comm P 1).trans (Assertion.one_mul P)
  mul_comm := Assertion.mul_comm

theorem mul_rotate_right (P Q R T : Assertion β) : P * (Q * (R * T)) = Q * (R * (P * T)) := by ac_rfl

theorem mul_sSup (P : Assertion β) (s : Set (Assertion β)) : P * sSup s = ⨆ Q ∈ s, P * Q := by
  refine Assertion.ext fun h => ?_
  simp only [mem_mul, mem_sSup, mem_iSup]
  constructor
  · intro hh
    obtain ⟨f, hf, g, ⟨Q, hQ, hg⟩, hrest⟩ := hh
    exact ⟨Q, hQ, f, hf, g, hg, hrest⟩
  · intro hh
    obtain ⟨Q, hQ, f, hf, g, hg, hrest⟩ := hh
    exact ⟨f, hf, g, ⟨Q, hQ, hg⟩, hrest⟩

instance : IsQuantale (Assertion β) where
  mul_sSup_distrib := mul_sSup
  sSup_mul_distrib s P := by
    rw [mul_comm, mul_sSup]
    simp only [mul_comm]

theorem iSup_mul {ι : Sort*} (P : ι → Assertion β) (Q : Assertion β) : (⨆ i, P i) * Q = ⨆ i, P i * Q := by
  rw [iSup, sSup_mul_distrib, iSup_range]

theorem mul_iSup {ι : Sort*} (P : Assertion β) (Q : ι → Assertion β) : P * (⨆ i, Q i) = ⨆ i, P * Q i := by
  simp only [mul_comm P, iSup_mul]

/-! ## Blocks -/

/-- The one block at `a` holds `v`. -/
def pts (a : Nat) (v : β) : Assertion β := ({Part.single a v} : Set (Part β))

theorem mem_pts_mul {a : Nat} {v : β} {h : Part β} :
    h ∈ pts a v * P ↔ h a = some v ∧ Function.update h a none ∈ P := by
  constructor
  · intro hh
    obtain ⟨_, rfl, g, hg, hd, rfl⟩ := hh
    have hnone := hd.single_left
    refine ⟨by simp [Part.union], ?_⟩
    have hrest : Function.update ((Part.single a v).union g) a none = g := by
      funext b
      by_cases hb : b = a
      · subst hb
        rw [Function.update_self, hnone]
      · rw [Function.update_of_ne hb, Part.union, Part.single_of_ne hb, Option.none_or]
    rw [hrest]
    exact hg
  · intro hh
    refine ⟨Part.single a v, rfl, _, hh.2, Part.disjoint_single (Function.update_self ..), ?_⟩
    funext b
    by_cases hb : b = a
    · subst hb
      simp [Part.union, hh.1]
    · simp [Part.union, Part.single_of_ne hb, Function.update_of_ne hb]

/-! ## Arrays -/

section each

variable {γ δ : Type} {f : γ → δ → Assertion β}

/-- Each element of `xs`, with the one of `ys` it stands for, has its part. -/
def each (f : γ → δ → Assertion β) : List γ → List δ → Assertion β
  | [], [] => 1
  | x :: xs, y :: ys => f x y * each f xs ys
  | _, _ => ⊥

theorem each_append (xs xs' : List γ) (ys ys' : List δ) (h : xs.length = ys.length) :
    each f (xs ++ xs') (ys ++ ys') = each f xs ys * each f xs' ys' := by
  induction xs generalizing ys with
  | nil =>
    cases ys with
    | nil => exact (one_mul _).symm
    | cons y ys => cases h
  | cons x xs ih =>
    cases ys with
    | nil => cases h
    | cons y ys =>
      simp only [List.cons_append, each]
      rw [ih ys (Nat.succ.inj h), mul_assoc]

theorem each_concat {xs : List γ} {ys : List δ} (h : xs.length = ys.length) (x : γ) (y : δ) :
    each f (xs ++ [x]) (ys ++ [y]) = f x y * each f xs ys := by
  rw [each_append xs [x] ys [y] h, mul_comm]
  simp only [each, mul_one]

/-- One element's part, and the others'. -/
theorem each_get {xs : List γ} {ys : List δ} {i : Nat} (hx : i < xs.length) (hy : i < ys.length) :
    each f xs ys = f xs[i] ys[i] * each f (xs.eraseIdx i) (ys.eraseIdx i) := by
  induction i generalizing xs ys with
  | zero =>
    cases xs with
    | nil => cases hx
    | cons x xs =>
      cases ys with
      | nil => cases hy
      | cons y ys => rfl
  | succ i ih =>
    cases xs with
    | nil => cases hx
    | cons x xs =>
      cases ys with
      | nil => cases hy
      | cons y ys =>
        simp only [each, List.getElem_cons_succ, List.eraseIdx_cons_succ]
        rw [ih (Nat.lt_of_succ_lt_succ hx) (Nat.lt_of_succ_lt_succ hy), mul_left_comm]

theorem each_set {xs : List γ} {ys : List δ} {i : Nat} (hx : i < xs.length) (hy : i < ys.length) (x : γ) (y : δ) :
    each f (xs.set i x) (ys.set i y) = f x y * each f (xs.eraseIdx i) (ys.eraseIdx i) := by
  have hx' : i < (xs.set i x).length := by rwa [List.length_set]
  have hy' : i < (ys.set i y).length := by rwa [List.length_set]
  rw [each_get hx' hy', List.getElem_set_self, List.getElem_set_self, List.eraseIdx_set_eq, List.eraseIdx_set_eq]

theorem each_length (xs : List γ) (ys : List δ) : each f xs ys = ⨆ _ : xs.length = ys.length, each f xs ys := by
  by_cases h : xs.length = ys.length
  · simp [h]
  · have hbot : each f xs ys = ⊥ := by
      induction xs generalizing ys with
      | nil =>
        cases ys with
        | nil => exact absurd rfl h
        | cons y ys => rfl
      | cons x xs ih =>
        cases ys with
        | nil => rfl
        | cons y ys =>
          rw [each, ih ys fun heq => h (congrArg (· + 1) heq), Quantale.mul_bot]
    simp [h, hbot]

/-- One more element. -/
theorem mul_each (x : γ) (y : δ) (xs : List γ) (ys : List δ) :
    f x y * each f xs ys = ⨆ _ : xs.length = ys.length, each f (xs ++ [x]) (ys ++ [y]) := by
  rw [each_length, mul_iSup]
  exact iSup_congr fun h => (each_concat h x y).symm

theorem each_le_one {xs : List γ} (h : ∀ x ∈ xs, ∀ y, f x y ≤ 1) (ys : List δ) : each f xs ys ≤ 1 := by
  induction xs generalizing ys with
  | nil =>
    cases ys with
    | nil => exact le_rfl
    | cons y ys => exact bot_le
  | cons x xs ih =>
    cases ys with
    | nil => exact bot_le
    | cons y ys =>
      have hrest := ih (fun x' hx => h x' (List.mem_cons_of_mem _ hx)) ys
      exact (mul_le_mul' (h x List.mem_cons_self y) hrest).trans (le_of_eq (one_mul 1))

end each

/-- Blocks that hold one of the `vs` each, and how many there are. -/
theorem mem_prod_pts {vs : List β} {h : Part β} (hh : h ∈ (vs.map fun v => ⨆ a, pts a v).prod) :
    ∃ as : List Nat, as.Nodup ∧ as.length = vs.length ∧ (∀ a, h a ≠ none ↔ a ∈ as) ∧ ∀ a v, h a = some v → v ∈ vs := by
  induction vs generalizing h with
  | nil =>
    rw [List.map_nil, List.prod_nil, mem_one] at hh
    exact ⟨[], List.nodup_nil, rfl, fun a => by simp [hh, Part.empty], fun a v hv => by simp [hh, Part.empty] at hv⟩
  | cons v vs ih =>
    rw [List.map_cons, List.prod_cons, iSup_mul] at hh
    obtain ⟨a, ha⟩ := mem_iSup.mp hh
    obtain ⟨hv, hrest⟩ := mem_pts_mul.mp ha
    obtain ⟨as, hnodup, hlen, hmem, hvs⟩ := ih hrest
    have hnot : a ∉ as := fun hin => (hmem a).mpr hin (Function.update_self ..)
    refine ⟨a :: as, List.nodup_cons.mpr ⟨hnot, hnodup⟩, congrArg (· + 1) hlen, fun b => ?_, fun b w hw => ?_⟩
    · by_cases hb : b = a
      · simp [hb, hv]
      · rw [List.mem_cons, or_iff_right hb, ← hmem b, Function.update_of_ne hb]
    · by_cases hb : b = a
      · obtain rfl := hb
        obtain rfl : v = w := Option.some.inj (hv.symm.trans hw)
        exact List.mem_cons_self
      · exact List.mem_cons_of_mem _ (hvs b w ((Function.update_of_ne hb ..).trans hw))

end Assertion

end Heaps
