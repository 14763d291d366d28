/-
Programs on a heap, and the programs on values they refine.

A heap program allocates, frees, reads and writes blocks; a block that is not
there is undefined behaviour. `Refines P p q Q` says that from a heap where `P`
holds of some of the blocks, `p` performs the operations of `q`, whatever they
are answered, and that their results satisfy `Q` in the end, the other blocks
being as they were. So `p` is defined where `q` is, and frees, keeps and leaves
behind what the assertions say.
-/
import OpenDbsc.Effects.Alike
import OpenDbsc.Heaps.Assertion

namespace Heaps

open Effects Prog Assertion

/-- Addresses from `next` on have not been given out. -/
structure Heap (β : Type) where
  blocks : Part β
  next : Nat
  fresh : ∀ a, next ≤ a → blocks a = none

namespace Heap

variable {β : Type} (h : Heap β)

def empty : Heap β := ⟨Part.empty, 0, fun _ _ => rfl⟩

def alloc (v : β) : Heap β where
  blocks := Function.update h.blocks h.next (some v)
  next := h.next + 1
  fresh a ha := by
    rw [Function.update_of_ne (by omega)]
    exact h.fresh a (by omega)

def release (a : Nat) : Heap β where
  blocks := Function.update h.blocks a none
  next := h.next
  fresh b hb := by
    by_cases hba : b = a
    · rw [hba, Function.update_self]
    · rw [Function.update_of_ne hba]
      exact h.fresh b hb

def write (a : Nat) (v : β) : Heap β where
  blocks := Function.update h.blocks a (some v)
  next := max h.next (a + 1)
  fresh b hb := by
    rw [Function.update_of_ne (by omega)]
    exact h.fresh b (by omega)

end Heap

/-- What a signature offers to a program on a heap. -/
class Allocating (S : Sig) where
  /-- Whether an allocation of this size succeeds. -/
  request : Nat → Prog S Bool
  /-- Undefined behaviour, which nothing comes after. -/
  undefined : S.Op
  never : IsEmpty (S.Ans undefined)

abbrev HeapM (S : Sig) (β α : Type) := StateT (Heap β) (Prog S) α

section programs

variable {S : Sig} [Allocating S] {β α : Type}

def undefined : HeapM S β α := fun _ => .op Allocating.undefined fun x => Allocating.never.elim x

/-- What the environment is asked does nothing to the heap. -/
def ask (p : Prog S α) : HeapM S β α := fun h => (fun a => (a, h)) <$> p

/-- A variable on the stack: a block that is there without being asked for. -/
def place (v : β) : HeapM S β (Option Nat) := fun h => pure (some h.next, h.alloc v)

/-- `malloc` of `size` bytes, the block's content `v`. -/
def alloc (size : Nat) (v : β) : HeapM S β (Option Nat) := fun h => do
  if ← Allocating.request size then pure (some h.next, h.alloc v) else pure (none, h)

/-- The content of the block at a pointer. -/
def load : Option Nat → HeapM S β β
  | none => undefined
  | some a => fun h =>
    match h.blocks a with
    | some v => pure (v, h)
    | none => undefined h

def store (p : Option Nat) (v : β) : HeapM S β Unit :=
  match p with
  | none => undefined
  | some a => fun h =>
    match h.blocks a with
    | some _ => pure ((), h.write a v)
    | none => undefined h

/-- `free`: of a null pointer it does nothing. -/
def free : Option Nat → HeapM S β Unit
  | none => pure ()
  | some a => fun h =>
    match h.blocks a with
    | some _ => pure ((), h.release a)
    | none => undefined h

/-- `realloc`: the block moves, with its content as `resize` makes it. -/
def reallocate (p : Option Nat) (size : Nat) (resize : Option β → β) : HeapM S β (Option Nat) :=
  match p with
  | none => alloc size (resize none)
  | some a => do
    let v ← load (some a)
    match ← alloc size (resize (some v)) with
    | none => pure none
    | some b => do
      free (some a)
      pure (some b)

end programs

/-- `p`, where `P` holds, does as `q` does, to where `Q` holds. -/
def Refines {S : Sig} {β α α' : Type} (P : Assertion β) (p : HeapM S β α) (q : Prog S α') (Q : α → α' → Assertion β) : Prop :=
  ∀ (F : Assertion β) (h : Heap β), h.blocks ∈ P * F → Alike (fun r b => r.2.blocks ∈ Q r.1 b * F) (p h) q

namespace Refines

variable {S : Sig} {β α α' γ γ' : Type} {P P' R : Assertion β} {p : HeapM S β α} {q : Prog S α'}
  {Q Q' : α → α' → Assertion β}

/-- Of the whole heap. -/
theorem alike (hr : Refines P p q Q) {h : Heap β} (hP : h.blocks ∈ P) :
    Alike (fun r b => r.2.blocks ∈ Q r.1 b) (p h) q := by
  have hall := hr 1 h (by rwa [mul_one])
  simpa only [mul_one] using hall

theorem pre (hr : Refines P p q Q) (hle : P' ≤ P) : Refines P' p q Q :=
  fun F h hP => hr F h (mul_le_mul_left hle F hP)

theorem post (hr : Refines P p q Q) (hle : ∀ a b, Q a b ≤ Q' a b) : Refines P p q Q' :=
  fun F h hP => (hr F h hP).mono fun r b hQ => mul_le_mul_left (hle r.1 b) F hQ

/-- **The frame rule.** -/
theorem frame (hr : Refines P p q Q) (R : Assertion β) : Refines (P * R) p q fun a b => Q a b * R := by
  intro F h hP
  rw [mul_assoc] at hP
  simpa only [mul_assoc] using hr (R * F) h hP

theorem pure {a : α} {b : α'} (hle : P ≤ Q a b) : Refines (S := S) P (pure a) (pure b) Q :=
  fun F _ hP => alike_pure (mul_le_mul_left hle F hP)

theorem bind {T : γ → γ' → Assertion β} {f : α → HeapM S β γ} {g : α' → Prog S γ'} (hr : Refines P p q Q)
    (hf : ∀ a b, Refines (Q a b) (f a) (g b) T) : Refines P (p >>= f) (q >>= g) T :=
  fun F h hP => (hr F h hP).bind fun r b hQ => hf r.1 b F r.2 hQ

/-- A part with a frame, and what comes after it. -/
theorem step {T : γ → γ' → Assertion β} {f : α → HeapM S β γ} {g : α' → Prog S γ'} (hr : Refines P p q Q)
    (hf : ∀ a b, Refines (Q a b * R) (f a) (g b) T) : Refines (P * R) (p >>= f) (q >>= g) T :=
  (hr.frame R).bind hf

/-- A part that performs nothing. -/
theorem quiet {T : γ → γ' → Assertion β} {f : α → HeapM S β γ} {q' : Prog S γ'} {b : α'}
    (hr : Refines P p (Pure.pure b) Q) (hf : ∀ a, Refines (Q a b * R) (f a) q' T) : Refines (P * R) (p >>= f) q' T := by
  intro F h hP
  obtain ⟨r, hp, hQ⟩ := (hr.frame R F h hP).over
  have hbind : (p >>= f) h = f r.1 r.2 := by
    rw [show (p >>= f) h = p h >>= fun r => f r.1 r.2 from rfl, hp, pure_bind]
  rw [hbind]
  exact hf r.1 F r.2 hQ

theorem of_bot : Refines ⊥ p q Q := by
  intro F h hP
  rw [Quantale.bot_mul] at hP
  exact hP.elim

theorem bot_mul : Refines (⊥ * R) p q Q := by
  rw [Quantale.bot_mul]
  exact of_bot

theorem exists_pre {ι : Sort*} {P : ι → Assertion β} (hr : ∀ i, Refines (P i) p q Q) : Refines (⨆ i, P i) p q Q := by
  intro F h hP
  rw [iSup_mul] at hP
  obtain ⟨i, hi⟩ := mem_iSup.mp hP
  exact hr i F h hi

theorem exists_mul {ι : Sort*} {P : ι → Assertion β} (hr : ∀ i, Refines (P i * R) p q Q) : Refines ((⨆ i, P i) * R) p q Q := by
  rw [iSup_mul]
  exact exists_pre hr

/-- One element's part is taken out, if it is there. -/
theorem each_pre {γ δ : Type} {e : γ → δ → Assertion β} {xs : List γ} {ys : List δ} (i : Nat)
    (hin : ∀ (hx : i < xs.length) (hy : i < ys.length), Refines (e xs[i] ys[i] * (each e (xs.eraseIdx i) (ys.eraseIdx i) * R)) p q Q)
    (hout : xs[i]? = none → ys[i]? = none → Refines (each e xs ys * R) p q Q) : Refines (each e xs ys * R) p q Q := by
  by_cases hlen : xs.length = ys.length
  · by_cases hx : i < xs.length
    · rw [each_get hx (hlen ▸ hx), mul_assoc]
      exact hin hx (hlen ▸ hx)
    · exact hout (List.getElem?_eq_none (by omega)) (List.getElem?_eq_none (by omega))
  · rw [each_length]
    simp only [hlen, iSup_false]
    exact bot_mul

section primitives

variable {f : Unit → HeapM S β α} {a : Nat} {v w : β}

theorem ask_bind {q : Prog S γ} {f : γ → HeapM S β α} {g : γ → Prog S α'} (hr : ∀ x, Refines P (f x) (g x) Q) :
    Refines P (ask q >>= f) (q >>= g) Q := by
  intro F h hP
  rw [show (ask q >>= f) h = ask q h >>= fun r => f r.1 r.2 from rfl, ask, bind_map_left]
  exact alike_bind fun x => hr x F h hP

/-- A new block, apart from those there are. -/
theorem mem_alloc {h : Heap β} (hP : h.blocks ∈ P) : (h.alloc v).blocks ∈ pts h.next v * P := by
  refine mem_pts_mul.mpr ⟨Function.update_self .., ?_⟩
  have hsame : Function.update (h.alloc v).blocks h.next none = h.blocks := by
    funext b
    by_cases hb : b = h.next
    · rw [hb, Function.update_self, h.fresh _ (Nat.le_refl _)]
    · rw [Function.update_of_ne hb]
      exact Function.update_of_ne hb ..
  rw [hsame]
  exact hP

theorem place_bind {f : Option Nat → HeapM S β α} (hr : ∀ a, Refines (pts a v * P) (f (some a)) q Q) :
    Refines P (place v >>= f) q Q := by
  intro F h hP
  refine hr h.next F (h.alloc v) ?_
  rw [mul_assoc]
  exact mem_alloc hP

variable [Allocating S]

/-- Both are undefined. -/
theorem undefined {k : S.Ans (Allocating.undefined (S := S)) → Prog S α'} :
    Refines P (Heaps.undefined : HeapM S β α) (.op Allocating.undefined k) Q :=
  fun _ _ _ => .op fun x => Allocating.never.elim x

theorem undefined_bind {f : γ → HeapM S β α} {k : S.Ans (Allocating.undefined (S := S)) → Prog S α'} :
    Refines P (Heaps.undefined >>= f) (.op Allocating.undefined k) Q :=
  fun _ _ _ => .op fun x => Allocating.never.elim x

theorem alloc_bind {size : Nat} {f : Option Nat → HeapM S β α} {g : Bool → Prog S α'}
    (hsome : ∀ a, Refines (pts a v * P) (f (some a)) (g true) Q) (hnone : Refines P (f none) (g false) Q) :
    Refines P (alloc size v >>= f) (Allocating.request size >>= g) Q := by
  intro F h hP
  have hrun : (alloc size v >>= f) h = Allocating.request size >>= fun ok =>
      if ok then f (some h.next) (h.alloc v) else f none h := by
    rw [show (alloc size v >>= f) h = alloc size v h >>= fun r => f r.1 r.2 from rfl, alloc, bind_assoc]
    congr 1
    funext ok
    cases ok <;> rfl
  rw [hrun]
  refine alike_bind fun ok => ?_
  cases ok with
  | true =>
    refine hsome h.next F (h.alloc v) ?_
    rw [mul_assoc]
    exact mem_alloc hP
  | false => exact hnone F h hP

theorem load_bind {f : β → HeapM S β α} (hr : Refines (pts a v * P) (f v) q Q) :
    Refines (pts a v * P) (load (some a) >>= f) q Q := by
  intro F h hP
  have hrun : (load (some a) >>= f) h = f v h := by
    have hv : h.blocks a = some v := (mem_pts_mul.mp (mul_assoc (pts a v) P F ▸ hP)).1
    rw [show (load (some a) >>= f) h = load (some a) h >>= fun r => f r.1 r.2 from rfl]
    simp only [load, hv, pure_bind]
  rw [hrun]
  exact hr F h hP

theorem store_bind (hr : Refines (pts a w * P) (f ()) q Q) : Refines (pts a v * P) (store (some a) w >>= f) q Q := by
  intro F h hP
  rw [mul_assoc] at hP
  obtain ⟨hv, hrest⟩ := mem_pts_mul.mp hP
  have hrun : (store (some a) w >>= f) h = f () (h.write a w) := by
    rw [show (store (some a) w >>= f) h = store (some a) w h >>= fun r => f r.1 r.2 from rfl]
    simp only [store, hv, pure_bind]
  rw [hrun]
  refine hr F _ ?_
  rw [mul_assoc]
  refine mem_pts_mul.mpr ⟨Function.update_self .., ?_⟩
  rw [Heap.write, Function.update_idem]
  exact hrest

theorem free_bind (hr : Refines P (f ()) q Q) : Refines (pts a v * P) (free (some a) >>= f) q Q := by
  intro F h hP
  rw [mul_assoc] at hP
  obtain ⟨hv, hrest⟩ := mem_pts_mul.mp hP
  have hrun : (free (some a) >>= f) h = f () (h.release a) := by
    rw [show (free (some a) >>= f) h = free (some a) h >>= fun r => f r.1 r.2 from rfl]
    simp only [free, hv, pure_bind]
  rw [hrun]
  exact hr F _ hrest

/-- `realloc` moves the block, or leaves it where it is. -/
theorem reallocate_bind {size : Nat} {resize : Option β → β} {f : Option Nat → HeapM S β α} {g : Bool → Prog S α'}
    (hsome : ∀ b, Refines (pts b (resize (some v)) * P) (f (some b)) (g true) Q)
    (hnone : Refines (pts a v * P) (f none) (g false) Q) :
    Refines (pts a v * P) (reallocate (some a) size resize >>= f) (Allocating.request size >>= g) Q := by
  rw [reallocate, bind_assoc]
  refine load_bind ?_
  rw [bind_assoc]
  refine alloc_bind (fun b => ?_) (by simpa using hnone)
  rw [show pts b (resize (some v)) * (pts a v * P) = pts a v * (pts b (resize (some v)) * P) from mul_left_comm ..]
  rw [bind_assoc]
  refine free_bind ?_
  rw [pure_bind]
  exact hsome b

end primitives

end Refines

end Heaps
