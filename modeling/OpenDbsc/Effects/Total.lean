/-
Total correctness: what a program is sure to return.

`Returns φ p Q` says that `p` returns in every environment whose answers are
within `φ`, and that what it returns satisfies `Q`; `Total φ B p Q st` says it
of a program that also calls the component `B`, of the result and the state
it leaves. Each splits at a bind, so a program's condition is computed from
its parts. `Total.exec` reads the condition on a run, `Total.outcome` finds one.
-/
import OpenDbsc.Effects.Safe

namespace Effects.Prog

variable {S T : Sig} {α β σ : Type} {φ : Event S → Prop}

/-- No restriction on the answers. -/
def AnyAnswer (_ : Event S) : Prop := True

/-- `p` returns something that satisfies `Q`, whatever the answers within `φ`. -/
def Returns (φ : Event S → Prop) : Prog S α → (α → Prop) → Prop
  | ret a, Q => Q a
  | op o k, Q => (∃ x, φ ⟨o, x⟩) ∧ ∀ x, φ ⟨o, x⟩ → Returns φ (k x) Q

@[simp] theorem returns_pure {a : α} {Q : α → Prop} : Returns φ (pure a) Q ↔ Q a := Iff.rfl

theorem returns_bind {p : Prog S α} {f : α → Prog S β} {Q : β → Prop} :
    Returns φ (p >>= f) Q ↔ Returns φ p fun a => Returns φ (f a) Q := by
  induction p with
  | ret a => exact Iff.rfl
  | op o k ih =>
    rw [op_bind, Returns, Returns]
    exact and_congr_right fun _ => forall_congr' fun x => forall_congr' fun _ => ih x

theorem Returns.mono {p : Prog S α} {P Q : α → Prop} (h : Returns φ p P) (hPQ : ∀ a, P a → Q a) : Returns φ p Q := by
  induction p with
  | ret a => exact hPQ a h
  | op o k ih => exact ⟨h.1, fun x hx => ih x (h.2 x hx)⟩

theorem Returns.bind {p : Prog S α} {P : α → Prop} {f : α → Prog S β} {Q : β → Prop} (hp : Returns φ p P)
    (hf : ∀ a, P a → Returns φ (f a) Q) : Returns φ (p >>= f) Q :=
  returns_bind.mpr (hp.mono hf)

/-- What `p` returns within `φ` satisfies `Q`. -/
theorem Returns.trace {p : Prog S α} {Q : α → Prop} (h : Returns φ p Q) {tr : List (Event S)} {a : α}
    (ht : Trace p tr a) (hφ : ∀ e ∈ tr, φ e) : Q a := by
  induction ht with
  | ret => exact h
  | op _ ih => exact ih (h.2 _ (hφ _ List.mem_cons_self)) fun e he => hφ e (List.mem_cons_of_mem _ he)

/-- What never comes to an operation without an answer is sure to return. -/
theorem Answerable.returns (hφ : ∀ o, Nonempty (S.Ans o) → ∃ x, φ ⟨o, x⟩) {p : Prog S α} (h : p.Answerable) :
    Returns φ p fun _ => True := by
  induction p with
  | ret a => trivial
  | op o k ih => exact ⟨hφ o h.1, fun x _ => ih x (h.2 x)⟩

/-- Answers that `φ` leaves no choice of can be given in advance. -/
theorem returns_assuming {f : (o : S.Op) → Option (S.Ans o)} (hφ : ∀ o x y, f o = some x → (φ ⟨o, y⟩ ↔ y = x))
    {p : Prog S α} {Q : α → Prop} : Returns φ (p.assuming f) Q ↔ Returns φ p Q := by
  induction p with
  | ret a => exact Iff.rfl
  | op o k ih =>
    cases hfo : f o with
    | some x =>
      rw [assuming_op_some hfo, ih, Returns]
      constructor
      · refine fun h => ⟨⟨x, (hφ o x x hfo).mpr rfl⟩, fun y hy => ?_⟩
        rw [(hφ o x y hfo).mp hy]
        exact h
      · exact fun h => h.2 x ((hφ o x x hfo).mpr rfl)
    | none =>
      rw [assuming_op_none hfo, Returns, Returns]
      exact and_congr_right fun _ => forall_congr' fun x => forall_congr' fun _ => ih x

/-- `p` returns, and leaves a state, that satisfy `Q`, against `B` from the
state, whatever the answers within `φ`. -/
def Total (φ : Event S → Prop) (B : Comp S T σ) : Prog (S.sum T) α → (α → σ → Prop) → σ → Prop
  | ret a, Q, st => Q a st
  | op (.inl o) k, Q, st => (∃ x, φ ⟨o, x⟩) ∧ ∀ x, φ ⟨o, x⟩ → Total φ B (k x) Q st
  | op (.inr o) k, Q, st => ∀ tr x st', B o st tr x st' → (∀ e ∈ tr, φ e) → Total φ B (k x) Q st'

variable {B : Comp S T σ} {st : σ}

@[simp] theorem total_pure {a : α} {Q : α → σ → Prop} : Total φ B (pure a) Q st ↔ Q a st := Iff.rfl

theorem total_bind {p : Prog (S.sum T) α} {f : α → Prog (S.sum T) β} {Q : β → σ → Prop} :
    Total φ B (p >>= f) Q st ↔ Total φ B p (fun a st' => Total φ B (f a) Q st') st := by
  induction p generalizing st with
  | ret a => exact Iff.rfl
  | op o k ih =>
    rw [op_bind]
    cases o with
    | inl o => exact and_congr_right fun _ => forall_congr' fun x => forall_congr' fun _ => ih x
    | inr o =>
      exact forall_congr' fun _ => forall_congr' fun x => forall_congr' fun _ => forall_congr' fun _ =>
        forall_congr' fun _ => ih x

theorem total_lift {p : Prog S α} {Q : α → σ → Prop} :
    Total φ B p.lift Q st ↔ Returns φ p fun a => Q a st := by
  induction p with
  | ret a => exact Iff.rfl
  | op o k ih => exact and_congr_right fun _ => forall_congr' fun x => forall_congr' fun _ => ih x

theorem total_call {o : T.Op} {Q : T.Ans o → σ → Prop} :
    Total φ B (call o) Q st ↔ ∀ tr x st', B o st tr x st' → (∀ e ∈ tr, φ e) → Q x st' := Iff.rfl

theorem Total.mono {p : Prog (S.sum T) α} {P Q : α → σ → Prop} (h : Total φ B p P st)
    (hPQ : ∀ a st', P a st' → Q a st') : Total φ B p Q st := by
  induction p generalizing st with
  | ret a => exact hPQ a st h
  | op o k ih =>
    cases o with
    | inl o => exact ⟨h.1, fun x hx => ih x (h.2 x hx)⟩
    | inr o => exact fun tr x st' hB htr => ih x (h tr x st' hB htr)

theorem Total.and {p : Prog (S.sum T) α} {P Q : α → σ → Prop} (hP : Total φ B p P st) (hQ : Total φ B p Q st) :
    Total φ B p (fun a st' => P a st' ∧ Q a st') st := by
  induction p generalizing st with
  | ret a => exact ⟨hP, hQ⟩
  | op o k ih =>
    cases o with
    | inl o => exact ⟨hP.1, fun x hx => ih x (hP.2 x hx) (hQ.2 x hx)⟩
    | inr o => exact fun tr x st' hB htr => ih x (hP tr x st' hB htr) (hQ tr x st' hB htr)

/-- What is sure of an environment is sure of one that answers less freely. -/
theorem Total.narrow {ψ : Event S → Prop} (hsub : ∀ e, ψ e → φ e)
    (hans : ∀ o, (∃ x, φ ⟨o, x⟩) → ∃ x, ψ ⟨o, x⟩) {p : Prog (S.sum T) α} {Q : α → σ → Prop} (h : Total φ B p Q st) :
    Total ψ B p Q st := by
  induction p generalizing st with
  | ret a => exact h
  | op o k ih =>
    cases o with
    | inl o => exact ⟨hans o h.1, fun x hx => ih x (h.2 x (hsub _ hx))⟩
    | inr o => exact fun tr x st' hB htr => ih x (h tr x st' hB fun e he => hsub e (htr e he))

/-- And of a component that answers less freely. -/
theorem Total.component {B' : Comp S T σ} (hsub : ∀ o st tr x st', B' o st tr x st' → B o st tr x st')
    {p : Prog (S.sum T) α} {Q : α → σ → Prop} (h : Total φ B p Q st) : Total φ B' p Q st := by
  induction p generalizing st with
  | ret a => exact h
  | op o k ih =>
    cases o with
    | inl o => exact ⟨h.1, fun x hx => ih x (h.2 x hx)⟩
    | inr o => exact fun tr x st' hB htr => ih x (h tr x st' (hsub o st tr x st' hB) htr)

/-- The environment's events among those of a run. -/
def Within (φ : Event S → Prop) (tr : List (Event (S.sum T))) : Prop :=
  ∀ o x, (⟨.inl o, x⟩ : Event (S.sum T)) ∈ tr → φ ⟨o, x⟩

theorem within_map_inl {tr : List (Event S)} :
    Within φ (tr.map (Event.inl (T := T))) ↔ ∀ e ∈ tr, φ e := by
  constructor
  · exact fun h e he => h e.op e.ans (List.mem_map_of_mem he)
  · intro h o x hmem
    obtain ⟨e, he, heq⟩ := List.mem_map.mp hmem
    cases heq
    exact h e he

theorem within_append {tr₁ tr₂ : List (Event (S.sum T))} :
    Within φ (tr₁ ++ tr₂) ↔ Within φ tr₁ ∧ Within φ tr₂ := by
  unfold Within
  simp only [List.mem_append]
  constructor
  · exact fun h => ⟨fun o x hmem => h o x (.inl hmem), fun o x hmem => h o x (.inr hmem)⟩
  · exact fun h o x hmem => hmem.elim (h.1 o x) (h.2 o x)

/-- What a run within `φ` returns and leaves satisfies `Q`. -/
theorem Total.exec {p : Prog (S.sum T) α} {Q : α → σ → Prop} (h : Total φ B p Q st)
    {tr : List (Event (S.sum T))} {a : α} {st' : σ} (hex : Exec B p st tr a st') (hφ : Within φ tr) : Q a st' := by
  induction hex with
  | ret => exact h
  | env _ ih => exact ih (h.2 _ (hφ _ _ List.mem_cons_self)) fun o x hmem => hφ o x (List.mem_cons_of_mem _ hmem)
  | call hB _ ih =>
    obtain ⟨hφ₁, hφ₂⟩ := within_append.mp hφ
    exact ih (h _ _ _ hB (within_map_inl.mp hφ₁)) fun o x hmem => hφ₂ o x (List.mem_cons_of_mem _ hmem)

/-- If each call can be answered within `φ`, a program that is sure to return has a run. -/
theorem Total.outcome {p : Prog (S.sum T) α} {Q : α → σ → Prop} (h : Total φ B p Q st)
    (hB : ∀ o st, ∃ tr x st', B o st tr x st' ∧ ∀ e ∈ tr, φ e) :
    ∃ tr a st', Exec B p st tr a st' ∧ Within φ tr ∧ Q a st' := by
  induction p generalizing st with
  | ret a => exact ⟨[], a, st, .ret, fun _ _ hmem => (List.not_mem_nil hmem).elim, h⟩
  | op o k ih =>
    cases o with
    | inl o =>
      obtain ⟨x, hx⟩ := h.1
      obtain ⟨tr, a, st', hex, hφ, hQ⟩ := ih x (h.2 x hx)
      refine ⟨_, a, st', .env hex, fun o' y hmem => ?_, hQ⟩
      rcases List.mem_cons.mp hmem with heq | hmem
      · cases heq
        exact hx
      · exact hφ o' y hmem
    | inr o =>
      obtain ⟨tr₁, x, st₁, hcall, hφ₁⟩ := hB o st
      obtain ⟨tr, a, st', hex, hφ, hQ⟩ := ih x (h tr₁ x st₁ hcall hφ₁)
      refine ⟨_, a, st', .call hcall hex, within_append.mpr ⟨within_map_inl.mpr hφ₁, fun o' y hmem => ?_⟩, hQ⟩
      rcases List.mem_cons.mp hmem with heq | hmem
      · cases heq
      · exact hφ o' y hmem

end Effects.Prog
