/-
Runs to their end, whether the program returns there or not.

`Halts B p st tr r st'` is a run of `p` that cannot go on: `r` is what `p`
returned, or `none` where it came to an operation that has no answer. A run
that returns is one of `Exec`, and a safe program's runs all return.
-/
import OpenDbsc.Effects.Safe

namespace Effects.Prog

variable {S T : Sig} {α β σ : Type}

inductive Halts (B : Comp S T σ) : Prog (S.sum T) α → σ → List (Event (S.sum T)) → Option α → σ → Prop
  | ret {a : α} {st} : Halts B (.ret a) st [] (some a) st
  | stuck {o : S.Op} {k : S.Ans o → Prog (S.sum T) α} {st} :
      ¬ Nonempty (S.Ans o) → Halts B (.op (.inl o) k) st [] none st
  | env {o : S.Op} {k : S.Ans o → Prog (S.sum T) α} {x st tr r st'} :
      Halts B (k x) st tr r st' → Halts B (.op (.inl o) k) st (⟨.inl o, x⟩ :: tr) r st'
  | call {o : T.Op} {k : T.Ans o → Prog (S.sum T) α} {st tr₁ x st₁ tr r st'} :
      B o st tr₁ x st₁ → Halts B (k x) st₁ tr r st' →
      Halts B (.op (.inr o) k) st (tr₁.map Event.inl ++ ⟨.inr o, x⟩ :: tr) r st'

variable {B : Comp S T σ} {st st' : σ} {tr : List (Event (S.sum T))}

theorem halts_ret {a : α} {r : Option α} :
    Halts B (.ret a) st tr r st' ↔ tr = [] ∧ r = some a ∧ st' = st := by
  constructor
  · intro h
    cases h with
    | ret => exact ⟨rfl, rfl, rfl⟩
  · intro ⟨htr, hr, hst⟩
    rw [htr, hr, hst]
    exact .ret

/-- An operation of the environment that has an answer is answered. -/
theorem halts_env {o : S.Op} {k : S.Ans o → Prog (S.sum T) α} {r : Option α} (ho : Nonempty (S.Ans o)) :
    Halts B (.op (.inl o) k) st tr r st' ↔ ∃ x tr', tr = ⟨.inl o, x⟩ :: tr' ∧ Halts B (k x) st tr' r st' := by
  constructor
  · intro h
    cases h with
    | stuck hnone => exact absurd ho hnone
    | env h => exact ⟨_, _, rfl, h⟩
  · intro ⟨x, tr', htr, h⟩
    rw [htr]
    exact .env h

/-- One that has none ends the run. -/
theorem halts_stuck {o : S.Op} {k : S.Ans o → Prog (S.sum T) α} {r : Option α} (ho : ¬ Nonempty (S.Ans o)) :
    Halts B (.op (.inl o) k) st tr r st' ↔ tr = [] ∧ r = none ∧ st' = st := by
  constructor
  · intro h
    cases h with
    | stuck => exact ⟨rfl, rfl, rfl⟩
    | @env _ _ x => exact absurd ⟨x⟩ ho
  · intro ⟨htr, hr, hst⟩
    rw [htr, hr, hst]
    exact .stuck ho

/-- A call that the component answers by itself. -/
theorem Halts.call_nil {o : T.Op} {k : T.Ans o → Prog (S.sum T) α} {x : T.Ans o} {st₁ : σ} {r : Option α}
    (hB : B o st [] x st₁) (h : Halts B (k x) st₁ tr r st') : Halts B (.op (.inr o) k) st (⟨.inr o, x⟩ :: tr) r st' :=
  .call hB h

theorem halts_map {p : Prog (S.sum T) α} {g : α → β} {r : Option β} :
    Halts B (g <$> p) st tr r st' ↔ ∃ r', r = r'.map g ∧ Halts B p st tr r' st' := by
  constructor
  · intro h
    generalize hq : g <$> p = q at h
    induction h generalizing p with
    | ret =>
      cases p with
      | ret a =>
        cases hq
        exact ⟨some a, rfl, .ret⟩
      | op o k => cases hq
    | stuck hnone =>
      cases p with
      | ret a => cases hq
      | op o k =>
        cases hq
        exact ⟨none, rfl, .stuck hnone⟩
    | env _ ih =>
      cases p with
      | ret a => cases hq
      | op o k =>
        cases hq
        obtain ⟨r', hr, h⟩ := ih rfl
        exact ⟨r', hr, .env h⟩
    | call hB _ ih =>
      cases p with
      | ret a => cases hq
      | op o k =>
        cases hq
        obtain ⟨r', hr, h⟩ := ih rfl
        exact ⟨r', hr, .call hB h⟩
  · intro ⟨r', hr, h⟩
    rw [hr]
    clear hr
    induction h with
    | ret => exact .ret
    | stuck hnone => exact .stuck hnone
    | env _ ih => exact .env ih
    | call hB _ ih => exact .call hB ih

/-- **A safe program returns.** -/
theorem Safe.halts {p : Prog (S.sum T) α} {r : Option α} (hsafe : Safe B p st) (h : Halts B p st tr r st') :
    ∃ a, r = some a ∧ Exec B p st tr a st' := by
  induction h with
  | ret => exact ⟨_, rfl, .ret⟩
  | stuck hnone => exact absurd hsafe.1 hnone
  | env _ ih =>
    obtain ⟨a, hr, hex⟩ := ih (hsafe.2 _)
    exact ⟨a, hr, .env hex⟩
  | call hB _ ih =>
    obtain ⟨a, hr, hex⟩ := ih (hsafe _ _ _ hB)
    exact ⟨a, hr, .call hB hex⟩

end Effects.Prog
