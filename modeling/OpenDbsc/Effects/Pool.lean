/-
Programs that run at once on one component, one operation at a time.

`Pool.Step` is one operation of one program, or a change the component's state
undergoes by itself; a run of it is any interleaving. What each program has
done so far is its part of the history (`Pool.steps`), so a property of the
program alone, such as that one operation comes only after another
(`Before`), holds of its part of every interleaving.
-/
import Mathlib.Logic.Function.Basic
import OpenDbsc.Effects.Link
import OpenDbsc.Effects.Run

namespace Effects

namespace Prog

variable {S T : Sig} {α β σ : Type}

/-! ## What a program has done so far -/

/-- `p` can perform `tr` and be left with `q`. -/
inductive Steps : Prog S α → List (Event S) → Prog S α → Prop
  | refl {p : Prog S α} : Steps p [] p
  | op {o : S.Op} {k : S.Ans o → Prog S α} {x tr q} : Steps (k x) tr q → Steps (.op o k) (⟨o, x⟩ :: tr) q

theorem steps_ret {p : Prog S α} {tr a} : Steps p tr (ret a) ↔ Trace p tr a := by
  constructor
  · intro h
    generalize hq : ret a = q at h
    induction h with
    | refl => exact hq ▸ .ret
    | op _ ih => exact .op (ih hq)
  · intro h
    induction h with
    | ret => exact .refl
    | op _ ih => exact .op ih

theorem Steps.snoc {p : Prog S α} {tr} {o : S.Op} {k : S.Ans o → Prog S α} (h : Steps p tr (.op o k)) (x : S.Ans o) :
    Steps p (tr ++ [⟨o, x⟩]) (k x) := by
  generalize hq : Prog.op o k = q at h
  induction h with
  | refl => exact hq ▸ .op .refl
  | op _ ih => exact .op (ih hq)

/-- `p` can perform `tr`. -/
def Performs (p : Prog S α) (tr : List (Event S)) : Prop := ∃ q, Steps p tr q

theorem Trace.performs {p : Prog S α} {tr a} (h : Trace p tr a) : Performs p tr := ⟨_, steps_ret.mpr h⟩

theorem performs_nil (p : Prog S α) : Performs p [] := ⟨p, .refl⟩

theorem performs_op {o : S.Op} {k : S.Ans o → Prog S α} {e tr} :
    Performs (op o k) (e :: tr) ↔ ∃ x, e = ⟨o, x⟩ ∧ Performs (k x) tr := by
  constructor
  · rintro ⟨q, h⟩
    cases h with
    | op h => exact ⟨_, rfl, q, h⟩
  · rintro ⟨x, rfl, q, h⟩; exact ⟨q, .op h⟩

@[simp] theorem performs_pure {a : α} {tr} : Performs (pure a : Prog S α) tr ↔ tr = [] := by
  constructor
  · rintro ⟨q, h⟩
    cases h with
    | refl => rfl
  · rintro rfl; exact performs_nil _

/-- What a bind has done, the first part has done, or finished before the second went on. -/
theorem performs_bind {p : Prog S α} {f : α → Prog S β} {tr} :
    Performs (p >>= f) tr ↔
      Performs p tr ∨ ∃ tr₁ a tr₂, tr = tr₁ ++ tr₂ ∧ Trace p tr₁ a ∧ Performs (f a) tr₂ := by
  induction p generalizing tr with
  | ret a =>
    constructor
    · exact fun h => .inr ⟨[], a, tr, rfl, .ret, h⟩
    · rintro (h | ⟨_, _, _, rfl, ⟨⟩, h⟩)
      · rw [performs_pure.mp h]
        exact performs_nil _
      · exact h
  | op o k ih =>
    rw [op_bind]
    cases tr with
    | nil => exact ⟨fun _ => .inl (performs_nil _), fun _ => performs_nil _⟩
    | cons e tr =>
      rw [performs_op, performs_op]
      constructor
      · rintro ⟨x, rfl, h⟩
        rcases ih x |>.mp h with h | ⟨tr₁, a, tr₂, rfl, h₁, h₂⟩
        · exact .inl ⟨x, rfl, h⟩
        · exact .inr ⟨⟨o, x⟩ :: tr₁, a, tr₂, rfl, .op h₁, h₂⟩
      · rintro (⟨x, rfl, h⟩ | ⟨tr₁, a, tr₂, heq, h₁, h₂⟩)
        · exact ⟨x, rfl, (ih x).mpr (.inl h)⟩
        · obtain ⟨x, tr', rfl, htr'⟩ := trace_op.mp h₁
          obtain ⟨rfl, rfl⟩ := List.cons_eq_cons.mp heq
          exact ⟨x, rfl, (ih x).mpr (.inr ⟨tr', a, tr₂, rfl, htr', h₂⟩)⟩

/-- A call that has been made comes after all that the first layer was asked for before. -/
theorem performs_lift_bind {p : Prog S α} {f : α → Prog (S.sum T) β} {tr} {o : T.Op} {x : T.Ans o}
    (h : Performs (p.lift >>= f) (tr ++ [⟨.inr o, x⟩])) :
    ∃ tr₁ a tr₂, tr = tr₁.map Event.inl ++ tr₂ ∧ Trace p tr₁ a ∧ Performs (f a) (tr₂ ++ [⟨.inr o, x⟩]) := by
  induction p generalizing tr with
  | ret a => exact ⟨[], a, tr, rfl, .ret, h⟩
  | op o' k ih =>
    cases tr with
    | nil =>
      obtain ⟨y, heq, -⟩ := performs_op.mp h
      cases heq
    | cons e tr =>
      obtain ⟨y, rfl, hrest⟩ := performs_op.mp h
      obtain ⟨tr₁, a, tr₂, rfl, htr₁, htr₂⟩ := ih y hrest
      exact ⟨⟨o', y⟩ :: tr₁, a, tr₂, rfl, .op htr₁, htr₂⟩

/-- And after another call that was made before. -/
theorem performs_call_bind {o' : T.Op} {f : T.Ans o' → Prog (S.sum T) β} {tr} {o : T.Op} {x : T.Ans o}
    (h : Performs (call (S := S) o' >>= f) (tr ++ [⟨.inr o, x⟩])) (ho : o ≠ o') :
    ∃ y tr₂, tr = ⟨.inr o', y⟩ :: tr₂ ∧ Performs (f y) (tr₂ ++ [⟨.inr o, x⟩]) := by
  cases tr with
  | nil =>
    obtain ⟨y, heq, -⟩ := performs_op.mp h
    cases heq
    exact absurd rfl ho
  | cons e tr =>
    obtain ⟨y, rfl, hrest⟩ := performs_op.mp h
    exact ⟨y, tr, rfl, hrest⟩

/-- What has been done before a program that only returns has been done by the first part. -/
theorem Performs.of_bind {p : Prog S α} {f : α → Prog S β} {tr} (hf : ∀ a, ∃ b, f a = pure b) (h : Performs (p >>= f) tr) :
    Performs p tr := by
  rcases performs_bind.mp h with h | ⟨tr₁, a, tr₂, rfl, htr, h⟩
  · exact h
  · obtain ⟨b, hb⟩ := hf a
    rw [hb] at h
    rw [performs_pure.mp h, List.append_nil]
    exact htr.performs

theorem Performs.of_map {p : Prog S α} {g : α → β} {tr} (h : Performs (g <$> p) tr) : Performs p tr := by
  rw [← bind_pure_comp] at h
  exact h.of_bind fun a => ⟨g a, rfl⟩

/-- With the operations `f` answers left out, what has been done that obeys `f`
has been done by the program that assumes `f`. -/
theorem Performs.assuming {f : (o : S.Op) → Option (S.Ans o)} {p : Prog S α} {tr} (h : Performs p tr) (ho : Obeys f tr) :
    Performs (p.assuming f) (tr.filter fun e => (f e.op).isNone) := by
  obtain ⟨q, hsteps⟩ := h
  induction hsteps with
  | refl => exact performs_nil _
  | @op o k x tr q _ ih =>
    have ih := ih fun e he => ho e (List.mem_cons_of_mem _ he)
    cases hf : f o with
    | some y =>
      obtain rfl : x = y := ho _ List.mem_cons_self y hf
      rw [assuming_op_some hf, List.filter_cons_of_neg (by simp [hf])]
      exact ih
    | none =>
      rw [assuming_op_none hf, List.filter_cons_of_pos (by simp [hf])]
      exact performs_op.mpr ⟨x, rfl, ih⟩

/-- What a program that is over returns. -/
def returned : Prog S α → Option α
  | ret a => some a
  | op _ _ => none

theorem returned_eq_some {p : Prog S α} {a : α} (h : p.returned = some a) : p = ret a := by
  cases p with
  | ret b => rw [Option.some.inj h]
  | op o k => cases h

/-! ## What holds of every operation -/

/-- `φ` holds of every operation `p` can come to. -/
def AllOps (φ : S.Op → Prop) : Prog S α → Prop
  | ret _ => True
  | op o k => φ o ∧ ∀ x, AllOps φ (k x)

section allOps

variable {φ ψ : S.Op → Prop}

@[simp] theorem allOps_pure (a : α) : AllOps φ (pure a : Prog S α) := trivial

theorem allOps_perform {o : S.Op} (h : φ o) : AllOps φ (perform o) := ⟨h, fun _ => trivial⟩

theorem AllOps.bind {p : Prog S α} {f : α → Prog S β} (hp : AllOps φ p) (hf : ∀ a, AllOps φ (f a)) :
    AllOps φ (p >>= f) := by
  induction p with
  | ret a => exact hf a
  | op o k ih => exact ⟨hp.1, fun x => ih x (hp.2 x)⟩

theorem AllOps.mono {p : Prog S α} (h : AllOps φ p) (hφ : ∀ o, φ o → ψ o) : AllOps ψ p := by
  induction p with
  | ret a => trivial
  | op o k ih => exact ⟨hφ o h.1, fun x => ih x (h.2 x)⟩

theorem allOps_lift {φ : (S.sum T).Op → Prop} (hφ : ∀ o, φ (.inl o)) (p : Prog S α) : AllOps φ (p.lift (T := T)) := by
  induction p with
  | ret a => trivial
  | op o k ih => exact ⟨hφ o, ih⟩

theorem AllOps.lift {φ : (S.sum T).Op → Prop} {p : Prog S α} (h : AllOps (fun o => φ (.inl o)) p) :
    AllOps φ (p.lift (T := T)) := by
  induction p with
  | ret a => trivial
  | op o k ih => exact ⟨h.1, fun x => ih x (h.2 x)⟩

theorem AllOps.steps {p : Prog S α} (h : AllOps φ p) {tr q} (hs : Steps p tr q) : ∀ e ∈ tr, φ e.op := by
  induction hs with
  | refl => exact fun _ he => (List.not_mem_nil he).elim
  | op _ ih =>
    intro e he
    rcases List.mem_cons.mp he with rfl | he
    · exact h.1
    · exact ih (h.2 _) e he

theorem AllOps.trace {p : Prog S α} (h : AllOps φ p) {tr a} (ht : Trace p tr a) : ∀ e ∈ tr, φ e.op :=
  h.steps (steps_ret.mpr ht)

/-- An operation that is none of the first part's is the second's. -/
theorem AllOps.performs_bind {p : Prog S α} {f : α → Prog S β} (hp : AllOps φ p) {tr e} (he : ¬ φ e.op)
    (h : Performs (p >>= f) (tr ++ [e])) :
    ∃ tr₁ a tr₂, tr = tr₁ ++ tr₂ ∧ Trace p tr₁ a ∧ Performs (f a) (tr₂ ++ [e]) := by
  rcases Prog.performs_bind.mp h with ⟨q, hsteps⟩ | ⟨tr₁, a, tr₂, heq, htr, hrest⟩
  · exact absurd (hp.steps hsteps e (List.mem_append_right _ List.mem_cons_self)) he
  · rcases List.eq_nil_or_concat tr₂ with rfl | ⟨tr₃, e', rfl⟩
    · rw [List.append_nil] at heq
      exact absurd (hp.trace htr e (heq ▸ List.mem_append_right _ List.mem_cons_self)) he
    · rw [List.concat_eq_append, ← List.append_assoc] at heq
      obtain ⟨rfl, hlast⟩ := List.append_inj' heq rfl
      rw [List.concat_eq_append, ← hlast] at hrest
      exact ⟨tr₁, a, tr₃, rfl, htr, hrest⟩

end allOps

/-- `p` comes to an operation of `ψ` only after an event of `φ`. -/
def Before (φ : Event S → Prop) (ψ : S.Op → Prop) : Prog S α → Prop
  | ret _ => True
  | op o k => ¬ ψ o ∧ ∀ x, φ ⟨o, x⟩ ∨ Before φ ψ (k x)

section before

variable {φ : Event S → Prop} {ψ : S.Op → Prop}

@[simp] theorem before_pure (a : α) : Before φ ψ (pure a : Prog S α) := trivial

theorem AllOps.before {p : Prog S α} (h : AllOps (fun o => ¬ ψ o) p) : Before φ ψ p := by
  induction p with
  | ret a => trivial
  | op o k ih => exact ⟨h.1, fun x => .inr (ih x (h.2 x))⟩

theorem before_bind {p : Prog S α} {f : α → Prog S β} (hp : Before φ ψ p)
    (hf : ∀ tr a, Trace p tr a → (∃ e ∈ tr, φ e) ∨ Before φ ψ (f a)) : Before φ ψ (p >>= f) := by
  induction p with
  | ret a =>
    rcases hf [] a .ret with ⟨e, he, -⟩ | h
    · cases he
    · exact h
  | op o k ih =>
    refine ⟨hp.1, fun x => ?_⟩
    rcases hp.2 x with hx | hx
    · exact .inl hx
    · by_cases hφ : φ ⟨o, x⟩
      · exact .inl hφ
      · refine .inr (ih x hx fun tr a htr => ?_)
        rcases hf _ a (.op htr) with ⟨e, he, hφe⟩ | h
        · rcases List.mem_cons.mp he with rfl | he
          · exact absurd hφe hφ
          · exact .inl ⟨e, he, hφe⟩
        · exact .inr h

theorem Before.bind {p : Prog S α} {f : α → Prog S β} (hp : Before φ ψ p) (hf : ∀ a, Before φ ψ (f a)) :
    Before φ ψ (p >>= f) := before_bind hp fun _ a _ => .inr (hf a)

theorem Before.performs {p : Prog S α} (h : Before φ ψ p) {tr e} (hp : Performs p (tr ++ [e])) (he : ψ e.op) :
    ∃ e' ∈ tr, φ e' := by
  induction tr generalizing p with
  | nil =>
    cases p with
    | ret a => cases performs_pure.mp hp
    | op o k =>
      obtain ⟨x, rfl, -⟩ := performs_op.mp hp
      exact absurd he h.1
  | cons e₁ tr ih =>
    cases p with
    | ret a => cases performs_pure.mp hp
    | op o k =>
      obtain ⟨x, rfl, hrest⟩ := performs_op.mp hp
      rcases h.2 x with hx | hx
      · exact ⟨_, List.mem_cons_self, hx⟩
      · obtain ⟨e', he', hφ⟩ := ih hx hrest
        exact ⟨e', List.mem_cons_of_mem _ he', hφ⟩

end before

/-- `p` does not return before an event of `φ`. -/
def Reaches (φ : Event S → Prop) : Prog S α → Prop
  | ret _ => False
  | op o k => ∀ x, φ ⟨o, x⟩ ∨ Reaches φ (k x)

/-- Once there is an event of `φ`, `p` does not return before one of `ψ`. -/
def Leads (φ ψ : Event S → Prop) : Prog S α → Prop
  | ret _ => True
  | op o k => ∀ x, (φ ⟨o, x⟩ → Reaches ψ (k x)) ∧ Leads φ ψ (k x)

section leads

variable {φ ψ : Event S → Prop}

theorem Reaches.bind {p : Prog S α} {f : α → Prog S β} (h : Reaches φ p) : Reaches φ (p >>= f) := by
  induction p with
  | ret a => exact h.elim
  | op o k ih => exact fun x => (h x).imp_right (ih x)

theorem Reaches.trace {p : Prog S α} (h : Reaches φ p) {tr a} (ht : Trace p tr a) : ∃ e ∈ tr, φ e := by
  induction ht with
  | ret => exact h.elim
  | op _ ih =>
    rcases h _ with hx | hx
    · exact ⟨_, List.mem_cons_self, hx⟩
    · obtain ⟨e, he, hφ⟩ := ih hx
      exact ⟨e, List.mem_cons_of_mem _ he, hφ⟩

@[simp] theorem leads_pure (a : α) : Leads φ ψ (pure a : Prog S α) := trivial

theorem Leads.bind {p : Prog S α} {f : α → Prog S β} (hp : Leads φ ψ p) (hf : ∀ a, Leads φ ψ (f a)) :
    Leads φ ψ (p >>= f) := by
  induction p with
  | ret a => exact hf a
  | op o k ih => exact fun x => ⟨fun hφ => ((hp x).1 hφ).bind, ih x (hp x).2⟩

theorem AllOps.leads {χ : S.Op → Prop} {p : Prog S α} (h : AllOps χ p) (hχ : ∀ e, φ e → ¬ χ e.op) : Leads φ ψ p := by
  induction p with
  | ret a => trivial
  | op o k ih => exact fun x => ⟨fun hφ => absurd h.1 (hχ _ hφ), ih x (h.2 x)⟩

theorem Leads.trace {p : Prog S α} (h : Leads φ ψ p) {tr₁ e tr₂ a} (ht : Trace p (tr₁ ++ e :: tr₂) a) (he : φ e) :
    ∃ e' ∈ tr₂, ψ e' := by
  induction tr₁ generalizing p with
  | nil =>
    cases p with
    | ret b => cases ht
    | op o k =>
      obtain ⟨x, tr', heq, htrace⟩ := trace_op.mp ht
      obtain ⟨rfl, rfl⟩ := List.cons_eq_cons.mp heq
      exact ((h x).1 he).trace htrace
  | cons e₁ tr₁ ih =>
    cases p with
    | ret b => cases ht
    | op o k =>
      obtain ⟨x, tr', heq, htrace⟩ := trace_op.mp ht
      obtain ⟨rfl, rfl⟩ := List.cons_eq_cons.mp heq
      exact ih (h x).2 htrace

end leads

/-! ## One operation -/

/-- One operation of `p`, the component's state before and after. -/
inductive Step (B : Comp S T σ) : Prog (S.sum T) α → σ → Event (S.sum T) → Prog (S.sum T) α → σ → Prop
  | env {o : S.Op} {k : S.Ans o → Prog (S.sum T) α} {x st} : Step B (.op (.inl o) k) st ⟨.inl o, x⟩ (k x) st
  | call {o : T.Op} {k : T.Ans o → Prog (S.sum T) α} {st tr x st'} (h : B o st tr x st') :
      Step B (.op (.inr o) k) st ⟨.inr o, x⟩ (k x) st'

/-- What an operation does to the component's state. -/
theorem Step.effect {B : Comp S T σ} {p q : Prog (S.sum T) α} {st e st'} (h : Step B p st e q st') :
    match e with
    | ⟨.inl _, _⟩ => st' = st
    | ⟨.inr o, x⟩ => ∃ tr, B o st tr x st' := by
  cases h with
  | env => rfl
  | call h => exact ⟨_, h⟩

theorem Step.steps {B : Comp S T σ} {p q : Prog (S.sum T) α} {st e st'} (h : Step B p st e q st') {p₀ tr}
    (hs : Steps p₀ tr p) : Steps p₀ (tr ++ [e]) q := by
  cases h with
  | env => exact hs.snoc _
  | call _ => exact hs.snoc _

end Prog

/-! ## Pools -/

open Prog

/-- Programs that run at once, and the state of the component they share. -/
structure Pool (S T : Sig) {ι : Type} (α : ι → Type) (σ : Type) where
  threads : (i : ι) → Prog (S.sum T) (α i)
  shared : σ

namespace Pool

variable {S T : Sig} {ι : Type} {α : ι → Type} {σ : Type} [DecidableEq ι]

abbrev Label (S T : Sig) (ι : Type) := Option (ι × Event (S.sum T))

abbrev History (S T : Sig) {ι : Type} (α : ι → Type) (σ : Type) := List (Transition (Pool S T α σ) (Label S T ι))

/-- One program goes on to `p`. -/
def set (P : Pool S T α σ) (i : ι) (p : Prog (S.sum T) (α i)) (st : σ) : Pool S T α σ :=
  ⟨Function.update P.threads i p, st⟩

@[simp] theorem set_threads (P : Pool S T α σ) (i : ι) (p st) : (P.set i p st).threads i = p := Function.update_self ..

theorem set_threads_other (P : Pool S T α σ) {i j : ι} (h : j ≠ i) (p st) : (P.set i p st).threads j = P.threads j :=
  Function.update_of_ne h ..

@[simp] theorem set_set (P : Pool S T α σ) (i : ι) (p q st st') : (P.set i p st).set i q st' = P.set i q st' := by
  simp [set]

theorem set_self (P : Pool S T α σ) (i : ι) : P.set i (P.threads i) P.shared = P := by
  simp [set]

/-- One operation of one program, or the shared state changing by itself (no label). -/
inductive Step (B : Comp S T σ) (E : σ → σ → Prop) (P : Pool S T α σ) : Label S T ι → Pool S T α σ → Prop
  | thread {i e p st} (h : Prog.Step B (P.threads i) P.shared e p st) : Step B E P (some (i, e)) (P.set i p st)
  | self {st} (h : E P.shared st) : Step B E P none ⟨P.threads, st⟩

/-- A call of one program is answered by the component. -/
theorem Step.answered {B : Comp S T σ} {E : σ → σ → Prop} {P P' : Pool S T α σ} {i : ι} {o : T.Op} {x : T.Ans o}
    (h : Step B E P (some (i, ⟨.inr o, x⟩)) P') : ∃ tr, B o P.shared tr x P'.shared := by
  generalize hl : (some (i, (⟨.inr o, x⟩ : Event (S.sum T))) : Label S T ι) = l at h
  cases h with
  | thread hp =>
    cases hl
    exact hp.effect
  | self => cases hl

/-- What the environment answers leaves the component as it is. -/
theorem Step.kept {B : Comp S T σ} {E : σ → σ → Prop} {P P' : Pool S T α σ} {i : ι} {o : S.Op} {x : S.Ans o}
    (h : Step B E P (some (i, ⟨.inl o, x⟩)) P') : P'.shared = P.shared := by
  generalize hl : (some (i, (⟨.inl o, x⟩ : Event (S.sum T))) : Label S T ι) = l at h
  cases h with
  | thread hp =>
    cases hl
    exact hp.effect
  | self => cases hl

/-- What one program did in a history. -/
def eventsOf (i : ι) (h : History S T α σ) : List (Event (S.sum T)) :=
  h.filterMap fun t => t.label.bind fun l => if l.1 = i then some l.2 else none

@[simp] theorem eventsOf_append (i : ι) (h₁ h₂ : History S T α σ) :
    eventsOf i (h₁ ++ h₂) = eventsOf i h₁ ++ eventsOf i h₂ := List.filterMap_append

theorem eventsOf_singleton (i : ι) {t : Transition (Pool S T α σ) (Label S T ι)} {e} (h : t.label = some (i, e)) :
    eventsOf i [t] = [e] := by
  simp [eventsOf, h]

theorem eventsOf_cons (i : ι) {t : Transition (Pool S T α σ) (Label S T ι)} {e} (h : t.label = some (i, e))
    (h₁ : History S T α σ) : eventsOf i (t :: h₁) = e :: eventsOf i h₁ := by
  rw [← List.singleton_append, eventsOf_append, eventsOf_singleton i h, List.singleton_append]

theorem eventsOf_other (i : ι) {t : Transition (Pool S T α σ) (Label S T ι)} (h : ∀ e, t.label ≠ some (i, e)) :
    eventsOf i [t] = [] := by
  cases hl : t.label with
  | none => simp [eventsOf, hl]
  | some l =>
    have hne : l.1 ≠ i := fun heq => h l.2 (by rw [hl, ← heq])
    simp [eventsOf, hl, hne]

theorem mem_eventsOf {i : ι} {h : History S T α σ} {e} : e ∈ eventsOf i h ↔ ∃ t ∈ h, t.label = some (i, e) := by
  simp only [eventsOf, List.mem_filterMap, Option.bind_eq_some_iff, Option.ite_none_right_eq_some, Option.some.injEq]
  constructor
  · rintro ⟨t, ht, ⟨j, e'⟩, hl, rfl, rfl⟩; exact ⟨t, ht, hl⟩
  · rintro ⟨t, ht, hl⟩; exact ⟨t, ht, (i, e), hl, rfl, rfl⟩

/-- Where in the history one program's event is. -/
theorem eventsOf_split {i : ι} {h : History S T α σ} {tr₁ e tr₂} (heq : eventsOf i h = tr₁ ++ e :: tr₂) :
    ∃ h₁ t h₂, h = h₁ ++ t :: h₂ ∧ t.label = some (i, e) ∧ eventsOf i h₁ = tr₁ ∧ eventsOf i h₂ = tr₂ := by
  obtain ⟨h₁, h', rfl, h₁eq, h'eq⟩ := List.filterMap_eq_append_iff.mp heq
  obtain ⟨h₀, t, h₂, rfl, hnone, hsome, h₂eq⟩ := List.filterMap_eq_cons_iff.mp h'eq
  simp only [Option.bind_eq_some_iff, Option.ite_none_right_eq_some, Option.some.injEq] at hsome
  obtain ⟨⟨j, e'⟩, hl, rfl, rfl⟩ := hsome
  refine ⟨h₁ ++ h₀, t, h₂, by simp, hl, ?_, h₂eq⟩
  have hnil : eventsOf j h₀ = [] := List.filterMap_eq_nil_iff.mpr hnone
  rw [eventsOf_append, hnil, List.append_nil]
  exact h₁eq

theorem eventsOf_append_cons_ne {i : ι} {h₁ h₂ : History S T α σ} {t : Transition (Pool S T α σ) (Label S T ι)} {e}
    (ht : t.label = some (i, e)) : eventsOf i h₁ ≠ eventsOf i (h₁ ++ t :: h₂) := by
  intro heq
  rw [eventsOf_append, eventsOf_cons i ht] at heq
  exact List.cons_ne_nil _ _ (List.append_right_eq_self.mp heq.symm)

/-- A program's event has one place in the history. -/
theorem eventsOf_position {i : ι} {h₁ h₂ g₁ g₂ : History S T α σ} {t u : Transition (Pool S T α σ) (Label S T ι)} {e e'}
    (heq : h₁ ++ t :: h₂ = g₁ ++ u :: g₂) (ht : t.label = some (i, e)) (hu : u.label = some (i, e'))
    (hev : eventsOf i h₁ = eventsOf i g₁) : h₁ = g₁ ∧ t = u ∧ h₂ = g₂ := by
  rcases List.append_eq_append_iff.mp heq with ⟨c, rfl, hc⟩ | ⟨c, rfl, hc⟩
  · cases c with
    | nil =>
      obtain ⟨rfl, rfl⟩ := List.cons_eq_cons.mp hc
      exact ⟨(List.append_nil _).symm, rfl, rfl⟩
    | cons t' c =>
      obtain ⟨rfl, -⟩ := List.cons_eq_cons.mp hc
      exact absurd hev (eventsOf_append_cons_ne ht)
  · cases c with
    | nil =>
      obtain ⟨rfl, rfl⟩ := List.cons_eq_cons.mp hc
      exact ⟨List.append_nil _, rfl, rfl⟩
    | cons u' c =>
      obtain ⟨rfl, -⟩ := List.cons_eq_cons.mp hc
      exact absurd hev.symm (eventsOf_append_cons_ne hu)

variable {B : Comp S T σ} {E : σ → σ → Prop} {P₀ P : Pool S T α σ} {h : History S T α σ}

/-- **Each program's part of the history is its own.** -/
theorem steps (hrun : Run (Step B E) P₀ h P) (i : ι) : Steps (P₀.threads i) (eventsOf i h) (P.threads i) := by
  induction hrun with
  | init => exact .refl
  | @step h P l P' _ hs ih =>
    rw [eventsOf_append]
    cases hs with
    | @thread j e p st hstep =>
      by_cases hij : j = i
      · subst hij
        rw [eventsOf_singleton j rfl]
        have hsteps := hstep.steps ih
        simpa [set] using hsteps
      · have hother : eventsOf i [⟨P, some (j, e), P.set j p st⟩] = [] := by
          refine eventsOf_other i fun e' he' => hij ?_
          cases he'
          rfl
        rw [hother, List.append_nil, set_threads_other _ (Ne.symm hij)]
        exact ih
    | @self st _ =>
      have hother : eventsOf i [⟨P, none, ⟨P.threads, st⟩⟩] = [] := by
        refine eventsOf_other i fun e he => ?_
        cases he
      rw [hother, List.append_nil]
      exact ih

/-- A transition of a run, with what went before it. -/
theorem transition {h₁ t h₂} (hrun : Run (Step B E) P₀ (h₁ ++ t :: h₂) P) :
    Run (Step B E) P₀ h₁ t.pre ∧ Step B E t.pre t.label t.post ∧ Run (Step B E) t.post h₂ P := by
  obtain ⟨P₁, hrun₁, hrun₂⟩ := hrun.of_append
  obtain ⟨rfl, hstep, hrun₂⟩ := hrun₂.of_cons
  exact ⟨hrun₁, hstep, hrun₂⟩

/-- What a program did up to one of its transitions. -/
theorem performs {h₁ t h₂} (hrun : Run (Step B E) P₀ (h₁ ++ t :: h₂) P) {i e} (ht : t.label = some (i, e)) :
    Performs (P₀.threads i) (eventsOf i h₁ ++ [e]) := by
  obtain ⟨hrun₁, hstep, -⟩ := transition hrun
  have hsteps := steps (hrun₁.step hstep) i
  rw [eventsOf_append, eventsOf_singleton i ht] at hsteps
  exact ⟨_, hsteps⟩

/-- What an operation of a program comes only after is there in the history. -/
theorem before {h₁ t h₂} (hrun : Run (Step B E) P₀ (h₁ ++ t :: h₂) P) {i e} (ht : t.label = some (i, e))
    {φ : Event (S.sum T) → Prop} {ψ : (S.sum T).Op → Prop} (hb : Before φ ψ (P₀.threads i)) (he : ψ e.op) :
    ∃ t' ∈ h₁, ∃ e', t'.label = some (i, e') ∧ φ e' := by
  obtain ⟨e', hmem, hφ⟩ := hb.performs (performs hrun ht) he
  obtain ⟨t', ht', hlabel⟩ := mem_eventsOf.mp hmem
  exact ⟨t', ht', e', hlabel, hφ⟩

/-! ## Playing a pool -/

/-- `i` performs its operations, those of the environment answered by `env`, up
to and with its next call, answered by `server`. -/
def advance (env : (o : S.Op) → Option (S.Ans o)) (server : (o : T.Op) → σ → T.Ans o × σ) (i : ι)
    (P : Pool S T α σ) : Prog (S.sum T) (α i) → Option (History S T α σ × Pool S T α σ)
  | ret a => some ([], P.set i (ret a) P.shared)
  | op (.inl o) k => (env o).bind fun x => (advance env server i P (k x)).map fun r =>
      (⟨P.set i (op (.inl o) k) P.shared, some (i, ⟨.inl o, x⟩), P.set i (k x) P.shared⟩ :: r.1, r.2)
  | op (.inr o) k =>
    let (x, st) := server o P.shared
    some ([⟨P.set i (op (.inr o) k) P.shared, some (i, ⟨.inr o, x⟩), P.set i (k x) st⟩], P.set i (k x) st)

/-- The programs of `schedule` advance in turn. -/
def play (env : (o : S.Op) → Option (S.Ans o)) (server : (o : T.Op) → σ → T.Ans o × σ) :
    List ι → Pool S T α σ → Option (History S T α σ × Pool S T α σ)
  | [], P => some ([], P)
  | i :: schedule, P => (advance env server i P (P.threads i)).bind fun r =>
      (play env server schedule r.2).map fun r' => (r.1 ++ r'.1, r'.2)

variable {env : (o : S.Op) → Option (S.Ans o)} {server : (o : T.Op) → σ → T.Ans o × σ}

theorem run_advance (hB : ∀ o st, ∃ tr, B o st tr (server o st).1 (server o st).2) {i : ι} {p : Prog (S.sum T) (α i)}
    {h P'} (hplay : advance env server i P p = some (h, P')) : Run (Step B E) (P.set i p P.shared) h P' := by
  induction p generalizing h with
  | ret a =>
    cases hplay
    exact .init
  | op o k ih =>
    cases o with
    | inl o =>
      simp only [advance, Option.bind_eq_some_iff, Option.map_eq_some_iff, Prod.ext_iff] at hplay
      obtain ⟨x, -, ⟨h', P''⟩, hr, rfl, rfl⟩ := hplay
      have hstep : Prog.Step B ((P.set i (op (.inl o) k) P.shared).threads i) P.shared ⟨.inl o, x⟩ (k x) P.shared := by
        rw [set_threads]
        exact .env
      have hthread := Step.thread (E := E) (P := P.set i (op (.inl o) k) P.shared) hstep
      rw [set_set] at hthread
      exact .cons hthread (ih x hr)
    | inr o =>
      cases hplay
      obtain ⟨tr, hcall⟩ := hB o P.shared
      have hstep : Prog.Step B ((P.set i (op (.inr o) k) P.shared).threads i) P.shared ⟨.inr o, (server o P.shared).1⟩
          (k (server o P.shared).1) (server o P.shared).2 := by
        rw [set_threads]
        exact .call hcall
      have hthread := Step.thread (E := E) (P := P.set i (op (.inr o) k) P.shared) hstep
      rw [set_set] at hthread
      exact Run.init.step hthread

/-- What is played is a run. -/
theorem run_play (hB : ∀ o st, ∃ tr, B o st tr (server o st).1 (server o st).2) {schedule : List ι} {h P'}
    (hplay : play env server schedule P = some (h, P')) : Run (Step B E) P h P' := by
  induction schedule generalizing P h with
  | nil =>
    cases hplay
    exact .init
  | cons i schedule ih =>
    simp only [play, Option.bind_eq_some_iff, Option.map_eq_some_iff, Prod.ext_iff] at hplay
    obtain ⟨⟨h₁, P₁⟩, h₁eq, ⟨h₂, P₂⟩, h₂eq, rfl, rfl⟩ := hplay
    have hrun := run_advance (E := E) hB h₁eq
    rw [set_self] at hrun
    exact hrun.append (ih h₂eq)

theorem answered_advance {i : ι} {p : Prog (S.sum T) (α i)} {h P'} (hplay : advance env server i P p = some (h, P'))
    {t j o x} (ht : t ∈ h) (hl : t.label = some (j, (⟨.inl o, x⟩ : Event (S.sum T)))) : env o = some x := by
  induction p generalizing h with
  | ret a =>
    cases hplay
    cases ht
  | op o' k ih =>
    cases o' with
    | inl o' =>
      simp only [advance, Option.bind_eq_some_iff, Option.map_eq_some_iff, Prod.ext_iff] at hplay
      obtain ⟨y, hy, ⟨h', P''⟩, hr, rfl, rfl⟩ := hplay
      rcases List.mem_cons.mp ht with rfl | ht
      · cases hl
        exact hy
      · exact ih y hr ht
    | inr o' =>
      cases hplay
      rw [List.mem_singleton.mp ht] at hl
      cases hl

/-- The environment answers what is played. -/
theorem answered_play {schedule : List ι} {h P'} (hplay : play env server schedule P = some (h, P'))
    {t j o x} (ht : t ∈ h) (hl : t.label = some (j, (⟨.inl o, x⟩ : Event (S.sum T)))) : env o = some x := by
  induction schedule generalizing P h with
  | nil =>
    cases hplay
    cases ht
  | cons i schedule ih =>
    simp only [play, Option.bind_eq_some_iff, Option.map_eq_some_iff, Prod.ext_iff] at hplay
    obtain ⟨⟨h₁, P₁⟩, h₁eq, ⟨h₂, P₂⟩, h₂eq, rfl, rfl⟩ := hplay
    rcases List.mem_append.mp ht with ht | ht
    · exact answered_advance h₁eq ht hl
    · exact ih h₂eq ht

end Pool

end Effects
