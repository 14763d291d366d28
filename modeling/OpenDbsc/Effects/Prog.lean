/-
Programs over a signature of effects, and what they can do.

A program either returns or performs an operation and goes on with the
operation's answer, whatever that answer is. So one definition of a function
serves every environment: `Trace p tr a` says that `p` can perform the events
`tr`, in order, and return `a`. An operation with no possible answer ends the
program without a result.

`assuming f p` is `p` with the operations `f` knows answered by `f`: what is
left of a program once, say, every allocation succeeds. `Trace.assuming`
carries a trace that obeys `f` over to it, so a property of such traces is
proved on the smaller program.
-/
import Mathlib.Control.Basic
import Mathlib.Data.List.Basic

namespace Effects

/-- Operations, and the type of each one's answers. -/
structure Sig where
  Op : Type
  Ans : Op → Type

/-- An operation with the answer it got. -/
structure Event (S : Sig) where
  op : S.Op
  ans : S.Ans op

inductive Prog (S : Sig) (α : Type) : Type where
  | ret (a : α) : Prog S α
  | op (o : S.Op) (k : S.Ans o → Prog S α) : Prog S α

namespace Prog

variable {S : Sig} {α β γ : Type}

protected def bind : Prog S α → (α → Prog S β) → Prog S β
  | ret a, f => f a
  | op o k, f => op o fun x => (k x).bind f

instance : Monad (Prog S) where
  pure := ret
  bind := Prog.bind

/-- Performs one operation and returns its answer. -/
def perform (o : S.Op) : Prog S (S.Ans o) := op o ret

theorem bind_ret (p : Prog S α) : p.bind ret = p := by
  induction p with
  | ret a => rfl
  | op o k ih => simp only [Prog.bind, ih]

protected theorem bind_assoc (p : Prog S α) (f : α → Prog S β) (g : β → Prog S γ) :
    (p.bind f).bind g = p.bind fun a => (f a).bind g := by
  induction p with
  | ret a => rfl
  | op o k ih => simp only [Prog.bind, ih]

instance : LawfulMonad (Prog S) :=
  LawfulMonad.mk' (Prog S) (fun p => bind_ret p) (fun _ _ => rfl) Prog.bind_assoc

theorem ret_eq_pure (a : α) : (ret a : Prog S α) = pure a := rfl

theorem op_bind (o : S.Op) (k : S.Ans o → Prog S α) (f : α → Prog S β) :
    op o k >>= f = op o fun x => k x >>= f := rfl

/-! ## Traces -/

/-- `p` can perform `tr` and return `a`. -/
inductive Trace : Prog S α → List (Event S) → α → Prop
  | ret {a : α} : Trace (.ret a) [] a
  | op {o : S.Op} {k : S.Ans o → Prog S α} {x tr a} : Trace (k x) tr a → Trace (.op o k) (⟨o, x⟩ :: tr) a

@[simp] theorem trace_pure {a b : α} {tr} : Trace (pure a : Prog S α) tr b ↔ tr = [] ∧ b = a := by
  constructor
  · rintro ⟨⟩; exact ⟨rfl, rfl⟩
  · rintro ⟨rfl, rfl⟩; exact .ret

theorem trace_op {o : S.Op} {k : S.Ans o → Prog S α} {tr a} :
    Trace (op o k) tr a ↔ ∃ x tr', tr = ⟨o, x⟩ :: tr' ∧ Trace (k x) tr' a := by
  constructor
  · intro h
    cases h with
    | op h => exact ⟨_, _, rfl, h⟩
  · rintro ⟨x, tr', rfl, h⟩; exact .op h

theorem trace_bind {p : Prog S α} {f : α → Prog S β} {tr b} :
    Trace (p >>= f) tr b ↔ ∃ tr₁ a tr₂, tr = tr₁ ++ tr₂ ∧ Trace p tr₁ a ∧ Trace (f a) tr₂ b := by
  induction p generalizing tr with
  | ret a =>
    constructor
    · exact fun h => ⟨[], a, tr, rfl, .ret, h⟩
    · rintro ⟨_, _, _, rfl, ⟨⟩, h⟩; exact h
  | op o k ih =>
    simp only [op_bind, trace_op]
    constructor
    · rintro ⟨x, tr', rfl, h⟩
      obtain ⟨tr₁, a, tr₂, rfl, h₁, h₂⟩ := (ih x).mp h
      exact ⟨⟨o, x⟩ :: tr₁, a, tr₂, rfl, ⟨x, tr₁, rfl, h₁⟩, h₂⟩
    · rintro ⟨_, a, tr₂, rfl, ⟨x, tr₁, rfl, h₁⟩, h₂⟩
      exact ⟨x, tr₁ ++ tr₂, rfl, (ih x).mpr ⟨tr₁, a, tr₂, rfl, h₁, h₂⟩⟩

theorem trace_map {p : Prog S α} {g : α → β} {tr b} : Trace (g <$> p) tr b ↔ ∃ a, b = g a ∧ Trace p tr a := by
  rw [← bind_pure_comp, trace_bind]
  constructor
  · rintro ⟨tr₁, a, tr₂, rfl, hp, hpure⟩
    obtain ⟨rfl, rfl⟩ := trace_pure.mp hpure
    exact ⟨a, rfl, by rwa [List.append_nil]⟩
  · rintro ⟨a, rfl, hp⟩; exact ⟨tr, a, [], (List.append_nil tr).symm, hp, .ret⟩

@[simp] theorem trace_perform {o : S.Op} {tr} {x : S.Ans o} :
    Trace (perform o) tr x ↔ tr = [⟨o, x⟩] := by
  simp only [perform, trace_op]
  constructor
  · rintro ⟨y, tr', rfl, ⟨⟩⟩; rfl
  · rintro rfl; exact ⟨x, [], rfl, .ret⟩

/-- The answers tell what is performed, and what is returned. -/
theorem Trace.unique {p : Prog S α} {tr₁ tr₂ rest₁ rest₂ : List (Event S)} {a b : α} (h₁ : Trace p tr₁ a)
    (h₂ : Trace p tr₂ b) (h : tr₁ ++ rest₁ = tr₂ ++ rest₂) : tr₁ = tr₂ ∧ a = b ∧ rest₁ = rest₂ := by
  induction h₁ generalizing tr₂ with
  | ret =>
    obtain ⟨rfl, rfl⟩ := trace_pure.mp h₂
    exact ⟨rfl, rfl, h⟩
  | op _ ih =>
    obtain ⟨x, tr, rfl, h₃⟩ := trace_op.mp h₂
    obtain ⟨he, htail⟩ := List.cons.inj h
    cases he
    obtain ⟨rfl, hab, hrest⟩ := ih h₃ htail
    exact ⟨rfl, hab, hrest⟩

/-- Whatever `p` returns satisfies `Q`. -/
def Ensures (p : Prog S α) (Q : α → Prop) : Prop := ∀ tr a, Trace p tr a → Q a

theorem Ensures.pure {a : α} {Q : α → Prop} (h : Q a) : Ensures (pure a : Prog S α) Q := by
  intro tr b hb
  obtain ⟨-, rfl⟩ := trace_pure.mp hb
  exact h

theorem Ensures.bind {p : Prog S α} {P : α → Prop} {f : α → Prog S β} {Q : β → Prop} (hp : Ensures p P)
    (hf : ∀ a, P a → Ensures (f a) Q) : Ensures (p >>= f) Q := by
  intro tr b hb
  obtain ⟨tr₁, a, tr₂, -, h₁, h₂⟩ := trace_bind.mp hb
  exact hf a (hp tr₁ a h₁) tr₂ b h₂

theorem Ensures.bind_any {p : Prog S α} {f : α → Prog S β} {Q : β → Prop} (hf : ∀ a, Ensures (f a) Q) :
    Ensures (p >>= f) Q :=
  Ensures.bind (P := fun _ => True) (fun _ _ _ => trivial) fun a _ => hf a

theorem bind_congr_of_ensures {p : Prog S α} {Q : α → Prop} {f g : α → Prog S β} (hp : Ensures p Q)
    (hfg : ∀ a, Q a → f a = g a) : p >>= f = p >>= g := by
  induction p with
  | ret a => exact hfg a (hp [] a .ret)
  | op o k ih =>
    rw [op_bind, op_bind]
    exact congrArg (op o) (funext fun x => ih x fun tr a ht => hp (⟨o, x⟩ :: tr) a (.op ht))

/-- `p` in the environment that answers its `n`-th operation by `env n`. -/
def follow (env : Nat → (o : S.Op) → Option (S.Ans o)) : Nat → Prog S α → Option (List (Event S) × α)
  | _, ret a => some ([], a)
  | n, op o k => (env n o).bind fun x => (follow env (n + 1) (k x)).map fun r => (⟨o, x⟩ :: r.1, r.2)

theorem trace_follow {env : Nat → (o : S.Op) → Option (S.Ans o)} {n : Nat} {p : Prog S α} {tr a}
    (h : follow env n p = some (tr, a)) : Trace p tr a := by
  induction p generalizing n tr with
  | ret b =>
    simp only [follow, Option.some.injEq, Prod.mk.injEq] at h
    obtain ⟨rfl, rfl⟩ := h
    exact .ret
  | op o k ih =>
    simp only [follow, Option.bind_eq_some_iff, Option.map_eq_some_iff, Prod.mk.injEq] at h
    obtain ⟨x, -, r, hr, rfl, rfl⟩ := h
    exact .op (ih x hr)

/-! ## Answering some operations in advance -/

/-- `p` with each operation `f` knows answered by `f`. -/
def assuming (f : (o : S.Op) → Option (S.Ans o)) : Prog S α → Prog S α
  | ret a => ret a
  | op o k => match f o with
    | some x => (k x).assuming f
    | none => op o fun x => (k x).assuming f

/-- Every answer in `tr` is the one `f` gives, where it gives one. -/
def Obeys (f : (o : S.Op) → Option (S.Ans o)) (tr : List (Event S)) : Prop :=
  ∀ e ∈ tr, ∀ x, f e.op = some x → e.ans = x

section assuming

variable {f : (o : S.Op) → Option (S.Ans o)}

@[simp] theorem assuming_pure (a : α) : (pure a : Prog S α).assuming f = pure a := rfl

theorem assuming_op_some {o : S.Op} {x : S.Ans o} (h : f o = some x) (k : S.Ans o → Prog S α) :
    (op o k).assuming f = (k x).assuming f := by
  simp only [assuming, h]

theorem assuming_op_none {o : S.Op} (h : f o = none) (k : S.Ans o → Prog S α) :
    (op o k).assuming f = op o fun x => (k x).assuming f := by
  simp only [assuming, h]

@[simp] theorem assuming_bind (p : Prog S α) (g : α → Prog S β) :
    (p >>= g).assuming f = p.assuming f >>= fun a => (g a).assuming f := by
  induction p with
  | ret a => rfl
  | op o k ih =>
    rw [op_bind]
    cases h : f o with
    | some x => simp only [assuming_op_some h, ih]
    | none => simp only [assuming_op_none h, op_bind, ih]

@[simp] theorem assuming_map (g : α → β) (p : Prog S α) :
    (g <$> p).assuming f = g <$> p.assuming f := by
  rw [← bind_pure_comp, assuming_bind]
  rfl

@[simp] theorem assuming_ite (c : Prop) [Decidable c] (p q : Prog S α) :
    (if c then p else q).assuming f = if c then p.assuming f else q.assuming f := by
  split <;> rfl

theorem assuming_perform_some {o : S.Op} {x : S.Ans o} (h : f o = some x) :
    (perform o : Prog S (S.Ans o)).assuming f = pure x :=
  assuming_op_some h _

theorem assuming_perform_none {o : S.Op} (h : f o = none) :
    (perform o : Prog S (S.Ans o)).assuming f = perform o :=
  assuming_op_none h _

theorem Obeys.of_append {tr₁ tr₂} (h : Obeys f (tr₁ ++ tr₂)) : Obeys f tr₁ ∧ Obeys f tr₂ :=
  ⟨fun e he => h e (List.mem_append_left _ he), fun e he => h e (List.mem_append_right _ he)⟩

theorem Obeys.append {tr₁ tr₂} (h₁ : Obeys f tr₁) (h₂ : Obeys f tr₂) : Obeys f (tr₁ ++ tr₂) :=
  fun e he => (List.mem_append.mp he).elim (h₁ e) (h₂ e)

/-- An environment that answers as `f` does makes traces that obey `f`. -/
theorem obeys_follow {env : Nat → (o : S.Op) → Option (S.Ans o)} (henv : ∀ n o x, f o = some x → env n o = some x)
    {n : Nat} {p : Prog S α} {tr a} (h : follow env n p = some (tr, a)) : Obeys f tr := by
  induction p generalizing n tr with
  | ret b =>
    simp only [follow, Option.some.injEq, Prod.mk.injEq] at h
    obtain ⟨rfl, -⟩ := h
    intro e he
    cases he
  | op o k ih =>
    simp only [follow, Option.bind_eq_some_iff, Option.map_eq_some_iff, Prod.mk.injEq] at h
    obtain ⟨x, hx, r, hr, rfl, rfl⟩ := h
    intro e he y hy
    rcases List.mem_cons.mp he with rfl | he
    · have hxy := hx.symm.trans (henv n o y hy)
      exact Option.some.inj hxy
    · exact ih x hr e he y hy

/-- A trace that obeys `f`, without the events `f` answers, is a trace of
the program that assumes `f`. -/
theorem Trace.assuming {p : Prog S α} {tr a} (h : Trace p tr a) (ho : Obeys f tr) :
    Trace (p.assuming f) (tr.filter fun e => (f e.op).isNone) a := by
  induction h with
  | ret => exact .ret
  | @op o k x tr a _ ih =>
    have ih := ih fun e he => ho e (List.mem_cons_of_mem _ he)
    cases hf : f o with
    | some y =>
      have hxy : x = y := ho _ List.mem_cons_self y hf
      subst hxy
      rw [assuming_op_some hf, List.filter_cons_of_neg (by simp [hf])]
      exact ih
    | none =>
      rw [assuming_op_none hf, List.filter_cons_of_pos (by simp [hf])]
      exact .op ih

/-- Conversely, a trace of the program that assumes `f` is what one that
obeys `f` leaves. -/
theorem Trace.of_assuming {p : Prog S α} {tr a} (h : Trace (p.assuming f) tr a) :
    ∃ tr', Trace p tr' a ∧ Obeys f tr' ∧ tr = tr'.filter fun e => (f e.op).isNone := by
  induction p generalizing tr with
  | ret b =>
    obtain ⟨rfl, rfl⟩ := trace_pure.mp h
    exact ⟨[], .ret, fun _ he => absurd he List.not_mem_nil, rfl⟩
  | op o k ih =>
    cases hf : f o with
    | some x =>
      rw [assuming_op_some hf] at h
      obtain ⟨tr', ht, ho, rfl⟩ := ih x h
      refine ⟨⟨o, x⟩ :: tr', .op ht, ?_, ?_⟩
      · intro e he y hy
        rcases List.mem_cons.mp he with rfl | he
        · exact Option.some.inj (hf.symm.trans hy)
        · exact ho e he y hy
      · rw [List.filter_cons_of_neg (by simp [hf])]
    | none =>
      rw [assuming_op_none hf, trace_op] at h
      obtain ⟨x, tr₁, rfl, h⟩ := h
      obtain ⟨tr', ht, ho, rfl⟩ := ih x h
      refine ⟨⟨o, x⟩ :: tr', .op ht, ?_, ?_⟩
      · intro e he y hy
        rcases List.mem_cons.mp he with rfl | he
        · rw [hf] at hy; cases hy
        · exact ho e he y hy
      · rw [List.filter_cons_of_pos (by simp [hf])]

end assuming

end Prog

end Effects
