/-
A program's own events, and the same with those of the component that serves it.

The component's events stand before the call they are for, so what the program
does between two calls is together in both.
-/
import OpenDbsc.Effects.Link

namespace Effects.Prog

variable {S T : Sig} {α σ : Type} {B : Comp S T σ}

/-- The events `tr` are `own`, with the component's put before each call. -/
inductive ServedBy (B : Comp S T σ) : σ → List (Event (S.sum T)) → List (Event (S.sum T)) → σ → Prop
  | nil {st} : ServedBy B st [] [] st
  | env {o : S.Op} {x st own tr st'} : ServedBy B st own tr st' →
      ServedBy B st (⟨.inl o, x⟩ :: own) (⟨.inl o, x⟩ :: tr) st'
  | call {o : T.Op} {st tr₁ x st₁ own tr st'} : B o st tr₁ x st₁ → ServedBy B st₁ own tr st' →
      ServedBy B st (⟨.inr o, x⟩ :: own) (tr₁.map Event.inl ++ ⟨.inr o, x⟩ :: tr) st'

theorem Exec.served {p : Prog (S.sum T) α} {st tr a st'} (h : Exec B p st tr a st') :
    ∃ own, Trace p own a ∧ ServedBy B st own tr st' := by
  induction h with
  | ret => exact ⟨[], .ret, .nil⟩
  | env _ ih =>
    obtain ⟨own, htrace, hserved⟩ := ih
    exact ⟨_, .op htrace, .env hserved⟩
  | call hcall _ ih =>
    obtain ⟨own, htrace, hserved⟩ := ih
    exact ⟨_, .op htrace, .call hcall hserved⟩

theorem ServedBy.env_inv {steps : List (Event S)} {own tr : List (Event (S.sum T))} {st st' : σ}
    (h : ServedBy B st (steps.map Event.inl ++ own) tr st') :
    ∃ rest, tr = steps.map Event.inl ++ rest ∧ ServedBy B st own rest st' := by
  induction steps generalizing tr with
  | nil => exact ⟨tr, rfl, h⟩
  | cons e steps ih =>
    cases h with
    | env h =>
      obtain ⟨rest, rfl, hserved⟩ := ih h
      exact ⟨rest, rfl, hserved⟩

theorem ServedBy.call_inv {o : T.Op} {x : T.Ans o} {own tr : List (Event (S.sum T))} {st st' : σ}
    (h : ServedBy B st (⟨.inr o, x⟩ :: own) tr st') :
    ∃ tr₁ st₁ rest, tr = tr₁.map Event.inl ++ ⟨.inr o, x⟩ :: rest ∧ B o st tr₁ x st₁ ∧ ServedBy B st₁ own rest st' := by
  cases h with
  | call hcall hserved => exact ⟨_, _, _, rfl, hcall, hserved⟩

/-- With the component's events, there is the environment's no less, and no other call. -/
theorem ServedBy.mem {own tr : List (Event (S.sum T))} {st st' : σ} (h : ServedBy B st own tr st')
    {e : Event (S.sum T)} : (e ∈ own → e ∈ tr) ∧ (∀ o x, e = ⟨.inr o, x⟩ → e ∈ tr → e ∈ own) := by
  induction h with
  | nil => exact ⟨id, fun _ _ _ h => h⟩
  | env _ ih =>
    refine ⟨fun hmem => ?_, fun o x he hmem => ?_⟩
    · exact List.mem_cons.mpr ((List.mem_cons.mp hmem).imp_right ih.1)
    · exact List.mem_cons.mpr ((List.mem_cons.mp hmem).imp_right (ih.2 o x he))
  | call _ _ ih =>
    refine ⟨fun hmem => ?_, fun o x he hmem => ?_⟩
    · exact List.mem_append_right _ (List.mem_cons.mpr ((List.mem_cons.mp hmem).imp_right ih.1))
    · rcases List.mem_append.mp hmem with hmem | hmem
      · obtain ⟨e', -, rfl⟩ := List.mem_map.mp hmem
        cases he
      · exact List.mem_cons.mpr ((List.mem_cons.mp hmem).imp_right (ih.2 o x he))

/-- What every answer keeps holds after them. -/
theorem ServedBy.invariant {P : σ → Prop} {own tr : List (Event (S.sum T))} {st st' : σ} (h : ServedBy B st own tr st')
    (hinit : P st)
    (hstep : ∀ {o st tr₁ x st₁}, (⟨.inr o, x⟩ : Event (S.sum T)) ∈ own → P st → B o st tr₁ x st₁ → P st₁) : P st' := by
  induction h with
  | nil => exact hinit
  | env _ ih => exact ih hinit fun hmem => hstep (List.mem_cons_of_mem _ hmem)
  | call hcall _ ih => exact ih (hstep List.mem_cons_self hinit hcall) fun hmem => hstep (List.mem_cons_of_mem _ hmem)

end Effects.Prog
