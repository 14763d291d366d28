/-
Runs that do not return.

`Stuck p tr`: performing the events `tr`, `p` comes to an operation that has no
answer. So a run to its end (`Ends`) either returns or is stuck, and its events
tell which (`Stuck.not_trace`).
-/
import OpenDbsc.Effects.Safe

namespace Effects.Prog

variable {S T : Sig} {α β : Type}

inductive Stuck : Prog S α → List (Event S) → Prop
  | here {o : S.Op} {k : S.Ans o → Prog S α} : ¬ Nonempty (S.Ans o) → Stuck (.op o k) []
  | op {o : S.Op} {k : S.Ans o → Prog S α} {x tr} : Stuck (k x) tr → Stuck (.op o k) (⟨o, x⟩ :: tr)

/-- A run to its end, whether `p` returns there or not. -/
def Ends (p : Prog S α) (tr : List (Event S)) : Prop := (∃ a, Trace p tr a) ∨ Stuck p tr

theorem not_stuck_pure {a : α} {tr} : ¬ Stuck (pure a : Prog S α) tr := nofun

/-- An answerable program is never stuck. -/
theorem Stuck.not_answerable {p : Prog S α} {tr} (h : Stuck p tr) : ¬ p.Answerable := by
  induction h with
  | here hnone => exact fun hp => hnone hp.1
  | op _ ih => exact fun hp => ih (hp.2 _)

/-- A run that returned goes on in no run that is stuck. -/
theorem Stuck.not_trace {p : Prog S α} {tr₁ tr₂ rest a} (h : Stuck p tr₂) (ht : Trace p tr₁ a) : tr₁ ++ rest ≠ tr₂ := by
  induction h generalizing tr₁ with
  | here hnone =>
    obtain ⟨x, -, -, -⟩ := trace_op.mp ht
    exact absurd ⟨x⟩ hnone
  | op _ ih =>
    obtain ⟨y, tr, rfl, hrest⟩ := trace_op.mp ht
    intro heq
    obtain ⟨hevent, htail⟩ := List.cons.inj heq
    cases hevent
    exact ih hrest htail

theorem stuck_op {o : S.Op} {k : S.Ans o → Prog S α} {tr} (ho : Nonempty (S.Ans o)) :
    Stuck (op o k) tr ↔ ∃ x tr', tr = ⟨o, x⟩ :: tr' ∧ Stuck (k x) tr' := by
  constructor
  · intro h
    cases h with
    | here hnone => exact absurd ho hnone
    | op h => exact ⟨_, _, rfl, h⟩
  · rintro ⟨x, tr', rfl, h⟩
    exact .op h

theorem stuck_bind {p : Prog S α} {f : α → Prog S β} {tr} :
    Stuck (p >>= f) tr ↔ Stuck p tr ∨ ∃ tr₁ a tr₂, tr = tr₁ ++ tr₂ ∧ Trace p tr₁ a ∧ Stuck (f a) tr₂ := by
  induction p generalizing tr with
  | ret a =>
    constructor
    · exact fun h => .inr ⟨[], a, tr, rfl, .ret, h⟩
    · rintro (h | ⟨_, _, _, rfl, ⟨⟩, h⟩)
      · exact absurd h not_stuck_pure
      · exact h
  | op o k ih =>
    rw [op_bind]
    by_cases ho : Nonempty (S.Ans o)
    · simp only [stuck_op ho, ih]
      constructor
      · rintro ⟨x, tr', rfl, h | ⟨tr₁, a, tr₂, rfl, h₁, h₂⟩⟩
        · exact .inl ⟨x, tr', rfl, h⟩
        · exact .inr ⟨⟨o, x⟩ :: tr₁, a, tr₂, rfl, .op h₁, h₂⟩
      · rintro (⟨x, tr', rfl, h⟩ | ⟨_, a, tr₂, rfl, h₁, h₂⟩)
        · exact ⟨x, tr', rfl, .inl h⟩
        · obtain ⟨x, tr₁, rfl, hrest⟩ := trace_op.mp h₁
          exact ⟨x, tr₁ ++ tr₂, rfl, .inr ⟨tr₁, a, tr₂, rfl, hrest, h₂⟩⟩
    · constructor
      · intro h
        cases h with
        | here hnone => exact .inl (.here hnone)
        | @op _ _ x => exact absurd ⟨x⟩ ho
      · rintro (h | ⟨_, _, _, -, h₁, -⟩)
        · cases h with
          | here hnone => exact .here hnone
          | @op _ _ x => exact absurd ⟨x⟩ ho
        · obtain ⟨x, -, -, -⟩ := trace_op.mp h₁
          exact absurd ⟨x⟩ ho

/-- After a program that always returns. -/
theorem stuck_bind_answerable {p : Prog S α} {f : α → Prog S β} {tr} (hp : p.Answerable) :
    Stuck (p >>= f) tr ↔ ∃ tr₁ a tr₂, tr = tr₁ ++ tr₂ ∧ Trace p tr₁ a ∧ Stuck (f a) tr₂ := by
  rw [stuck_bind]
  exact or_iff_right fun h => h.not_answerable hp

theorem stuck_lift {p : Prog S α} {tr : List (Event (S.sum T))} :
    Stuck (p.lift (T := T)) tr ↔ ∃ tr', tr = tr'.map Event.inl ∧ Stuck p tr' := by
  induction p generalizing tr with
  | ret a =>
    constructor
    · exact fun h => absurd h not_stuck_pure
    · rintro ⟨_, -, h⟩
      exact absurd h not_stuck_pure
  | op o k ih =>
    rw [lift]
    constructor
    · intro h
      cases h with
      | here hnone => exact ⟨[], rfl, .here hnone⟩
      | @op _ _ x _ hrest =>
        obtain ⟨tr', rfl, hstuck⟩ := (ih x).mp hrest
        exact ⟨⟨o, x⟩ :: tr', rfl, .op hstuck⟩
    · rintro ⟨_, rfl, h⟩
      cases h with
      | here hnone => exact .here hnone
      | @op _ _ x tr' h => exact .op ((ih x).mpr ⟨tr', rfl, h⟩)

theorem Answerable.lift {p : Prog S α} (h : p.Answerable) : (p.lift (T := T)).Answerable := by
  induction p with
  | ret a => trivial
  | op o k ih => exact ⟨h.1, fun x => ih x (h.2 x)⟩

theorem answerable_call {o : T.Op} (h : Nonempty (T.Ans o)) : (call (S := S) o).Answerable := answerable_perform h

/-- `p` in the environment `env`, up to the first operation that is not answered. -/
def stops (env : Nat → (o : S.Op) → Option (S.Ans o)) : Nat → Prog S α → Option (List (Event S) × S.Op)
  | _, ret _ => none
  | n, op o k => match env n o with
    | none => some ([], o)
    | some x => (stops env (n + 1) (k x)).map fun r => (⟨o, x⟩ :: r.1, r.2)

theorem stuck_stops {env : Nat → (o : S.Op) → Option (S.Ans o)} {n : Nat} {p : Prog S α} {tr o}
    (h : stops env n p = some (tr, o)) (ho : ¬ Nonempty (S.Ans o)) : Stuck p tr := by
  induction p generalizing n tr with
  | ret a => cases h
  | op o' k ih =>
    unfold stops at h
    split at h
    · cases h
      exact .here ho
    · obtain ⟨⟨tr', o''⟩, hr, heq⟩ := Option.map_eq_some_iff.mp h
      cases heq
      exact .op (ih _ hr)

end Effects.Prog
