/-
Runs of a labelled transition system, with their histories.

A history is the list of the run's transitions, each with the states it goes
between, so a property of a run can speak of what was true when something
happened. `Run.invariant` is the induction; `Run.refine` carries runs over to
a simpler system with the same labels.
-/
import Mathlib.Data.List.Basic

namespace Effects

structure Transition (σ ℓ : Type) where
  pre : σ
  label : ℓ
  post : σ

/-- `h` is a history from `s₀` to the state at the end. -/
inductive Run {σ ℓ : Type} (Step : σ → ℓ → σ → Prop) (s₀ : σ) : List (Transition σ ℓ) → σ → Prop
  | init : Run Step s₀ [] s₀
  | step {h s l s'} : Run Step s₀ h s → Step s l s' → Run Step s₀ (h ++ [⟨s, l, s'⟩]) s'

/-- `C` holds of each transition and what went before it. -/
def Throughout {σ ℓ : Type} (C : List (Transition σ ℓ) → Transition σ ℓ → Prop) (h : List (Transition σ ℓ)) : Prop :=
  ∀ h₁ t h₂, h = h₁ ++ t :: h₂ → C h₁ t

theorem Throughout.of_append {σ ℓ : Type} {C : List (Transition σ ℓ) → Transition σ ℓ → Prop}
    {h₁ h₂ : List (Transition σ ℓ)} (h : Throughout C (h₁ ++ h₂)) : Throughout C h₁ :=
  fun g t g' hg => h g t (g' ++ h₂) (by rw [hg, List.append_assoc, List.cons_append])

theorem Throughout.last {σ ℓ : Type} {C : List (Transition σ ℓ) → Transition σ ℓ → Prop}
    {h : List (Transition σ ℓ)} {t : Transition σ ℓ} (hC : Throughout C (h ++ [t])) : C h t := hC h t [] rfl

/-- No two transitions have the same mark. -/
def Distinct {σ ℓ κ : Type} (mark : Transition σ ℓ → Option κ) (h : List (Transition σ ℓ)) : Prop := (h.filterMap mark).Nodup

instance {σ ℓ κ : Type} [DecidableEq κ] (mark : Transition σ ℓ → Option κ) (h : List (Transition σ ℓ)) :
    Decidable (Distinct mark h) := inferInstanceAs (Decidable (h.filterMap mark).Nodup)

namespace Distinct

variable {σ ℓ κ : Type} {mark : Transition σ ℓ → Option κ} {h₁ h₂ h : List (Transition σ ℓ)} {t u : Transition σ ℓ} {k : κ}

theorem of_append (h : Distinct mark (h₁ ++ h₂)) : Distinct mark h₁ := by
  unfold Distinct at h
  rw [List.filterMap_append] at h
  exact (List.nodup_append.mp h).1

theorem ne_of_before (h : Distinct mark (h₁ ++ t :: h₂)) (hu : u ∈ h₁) (ht : mark t = some k) : mark u ≠ some k := by
  intro hmark
  unfold Distinct at h
  rw [List.filterMap_append, List.filterMap_cons_some ht] at h
  exact (List.nodup_append.mp h).2.2 k (List.mem_filterMap.mpr ⟨u, hu, hmark⟩) k List.mem_cons_self rfl

theorem eq (hd : Distinct mark h) (ht : t ∈ h) (hu : u ∈ h) (hmark : mark t = some k) (hmark' : mark u = some k) : t = u := by
  obtain ⟨h₁, h₂, rfl⟩ := List.append_of_mem ht
  rcases List.mem_append.mp hu with hu | hu
  · exact absurd hmark' (hd.ne_of_before hu hmark)
  · rcases List.mem_cons.mp hu with rfl | hu
    · rfl
    · obtain ⟨g₁, g₂, rfl⟩ := List.append_of_mem hu
      have heq : h₁ ++ t :: (g₁ ++ u :: g₂) = (h₁ ++ t :: g₁) ++ u :: g₂ := by simp
      rw [heq] at hd
      exact absurd hmark (hd.ne_of_before (List.mem_append_right _ List.mem_cons_self) hmark')

end Distinct

namespace Run

variable {σ τ ℓ : Type} {Step : σ → ℓ → σ → Prop} {s₀ s : σ} {h : List (Transition σ ℓ)}

/-- What holds at first and is kept by every step holds of every run. -/
theorem invariant {P : List (Transition σ ℓ) → σ → Prop} (hrun : Run Step s₀ h s) (hinit : P [] s₀)
    (hstep : ∀ {h s l s'}, Run Step s₀ h s → P h s → Step s l s' → P (h ++ [⟨s, l, s'⟩]) s') : P h s := by
  induction hrun with
  | init => exact hinit
  | step hrun hs ih => exact hstep hrun ih hs

theorem nil (hrun : Run Step s₀ [] s) : s = s₀ := by
  generalize hh : ([] : List (Transition σ ℓ)) = h at hrun
  cases hrun with
  | init => rfl
  | step => exact absurd hh (by simp)

/-- A run after a run. -/
theorem append {h₁ h₂ : List (Transition σ ℓ)} {s₁ : σ} (hrun₁ : Run Step s₀ h₁ s₁) (hrun₂ : Run Step s₁ h₂ s) :
    Run Step s₀ (h₁ ++ h₂) s := by
  induction hrun₂ with
  | init => rwa [List.append_nil]
  | step _ hs ih =>
    rw [← List.append_assoc]
    exact ih.step hs

theorem cons {l : ℓ} {s₁ : σ} (hs : Step s₀ l s₁) (hrun : Run Step s₁ h s) : Run Step s₀ (⟨s₀, l, s₁⟩ :: h) s :=
  (Run.init.step hs).append hrun

/-- The transitions of a run of which `C` holds all make a run of the steps
with `C`. -/
theorem restrict {C : Transition σ ℓ → Prop} (hrun : Run Step s₀ h s) (hC : ∀ t ∈ h, C t) :
    Run (fun s l s' => Step s l s' ∧ C ⟨s, l, s'⟩) s₀ h s := by
  induction hrun with
  | init => exact .init
  | step _ hs ih =>
    refine .step (ih fun t ht => hC t (List.mem_append_left _ ht)) ⟨hs, ?_⟩
    exact hC _ (List.mem_append_right _ List.mem_cons_self)

/-- A run is a run to any point of its history, and one from there on. -/
theorem of_append {h₁ h₂ : List (Transition σ ℓ)} (hrun : Run Step s₀ (h₁ ++ h₂) s) :
    ∃ s₁, Run Step s₀ h₁ s₁ ∧ Run Step s₁ h₂ s := by
  generalize hh : h₁ ++ h₂ = h at hrun
  induction hrun generalizing h₂ with
  | init =>
    obtain ⟨rfl, rfl⟩ := List.append_eq_nil_iff.mp hh
    exact ⟨s₀, .init, .init⟩
  | @step h s l s' hrun hs ih =>
    rcases List.eq_nil_or_concat h₂ with rfl | ⟨h₃, t, rfl⟩
    · rw [List.append_nil] at hh
      subst hh
      exact ⟨s', hrun.step hs, .init⟩
    · rw [List.concat_eq_append, ← List.append_assoc] at hh
      obtain ⟨hh, ht⟩ := List.append_inj' hh rfl
      obtain ⟨s₁, hrun₁, hrun₂⟩ := ih hh
      rw [List.singleton_inj.mp ht, List.concat_eq_append]
      exact ⟨s₁, hrun₁, hrun₂.step hs⟩

/-- The first step of a run. -/
theorem of_cons {t : Transition σ ℓ} (hrun : Run Step s₀ (t :: h) s) :
    t.pre = s₀ ∧ Step s₀ t.label t.post ∧ Run Step t.post h s := by
  rw [← List.singleton_append] at hrun
  obtain ⟨s₁, hrun₁, hrun₂⟩ := of_append hrun
  generalize hh : [t] = h₁ at hrun₁
  cases hrun₁ with
  | init => cases hh
  | @step h₀ s₀' l _ hrun₀ hs =>
    rw [← List.nil_append [t]] at hh
    obtain ⟨hnil, ht⟩ := List.append_inj' hh rfl
    cases hrun₀ with
    | init =>
      rw [List.singleton_inj.mp ht]
      exact ⟨rfl, hs, hrun₂⟩
    | step => exact absurd hnil (by simp)

/-- What holds of every step from where a run comes holds throughout it. -/
theorem throughout {C : List (Transition σ ℓ) → Transition σ ℓ → Prop} (hrun : Run Step s₀ h s)
    (hC : ∀ {h s l s'}, Run Step s₀ h s → Step s l s' → C h ⟨s, l, s'⟩) : Throughout C h := by
  rintro h₁ t h₂ rfl
  obtain ⟨s₁, hrun₁, hrun₂⟩ := hrun.of_append
  obtain ⟨rfl, hs, -⟩ := hrun₂.of_cons
  exact hC hrun₁ hs

/-- **Refinement of runs.** A step matched by one of the simpler system, with
the same label, makes a run matched by one with the same labels. -/
theorem refine {Step' : τ → ℓ → τ → Prop} {t₀ : τ} {R : σ → τ → Prop} (hrun : Run Step s₀ h s) (hinit : R s₀ t₀)
    (hstep : ∀ {s l s' t}, R s t → Step s l s' → ∃ t', Step' t l t' ∧ R s' t') :
    ∃ h' t, Run Step' t₀ h' t ∧ h'.map (·.label) = h.map (·.label) ∧ R s t := by
  induction hrun with
  | init => exact ⟨[], t₀, .init, rfl, hinit⟩
  | step _ hs ih =>
    obtain ⟨h', t, hrun', hlabels, hR⟩ := ih
    obtain ⟨t', hs', hR'⟩ := hstep hR hs
    exact ⟨_, t', .step hrun' hs', by simp [hlabels], hR'⟩

end Run

end Effects
