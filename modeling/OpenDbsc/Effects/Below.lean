/-
Programs cut short.

A loop is unrolled a number of turns and then is an operation without an
answer. `Below p q` says that `q` does what `p` does wherever `p` goes on: a
loop is below the same loop unrolled further, and what is cut short at the end
of `p` may be anything in `q`. So what `p` comes to, `q` comes to
(`Below.exec`), and one number of turns does for any number of runs.
-/
import OpenDbsc.Effects.Link

namespace Effects.Prog

variable {S T : Sig} {α β σ : Type}

inductive Below : Prog S α → Prog S α → Prop
  | ret {a : α} : Below (.ret a) (.ret a)
  | op {o : S.Op} {k k' : S.Ans o → Prog S α} : (∀ x, Below (k x) (k' x)) → Below (.op o k) (.op o k')
  | stuck {o : S.Op} {k : S.Ans o → Prog S α} {q : Prog S α} : IsEmpty (S.Ans o) → Below (.op o k) q

theorem Below.refl (p : Prog S α) : Below p p := by
  induction p with
  | ret a => exact .ret
  | op o k ih => exact .op ih

theorem Below.bind {p q : Prog S α} {f g : α → Prog S β} (hpq : Below p q) (hfg : ∀ a, Below (f a) (g a)) :
    Below (p >>= f) (q >>= g) := by
  induction hpq with
  | ret => exact hfg _
  | op _ ih => exact .op ih
  | stuck hnone => exact .stuck hnone

/-- The same program, followed by two. -/
theorem below_bind {p : Prog S α} {f g : α → Prog S β} (hfg : ∀ a, Below (f a) (g a)) : Below (p >>= f) (p >>= g) :=
  (Below.refl p).bind hfg

theorem below_ite {c : Prop} [Decidable c] {p q p' q' : Prog S α} (h : Below p p') (h' : Below q q') :
    Below (if c then p else q) (if c then p' else q') := by
  split
  · exact h
  · exact h'

/-- **What a program comes to**, one it is below comes to as well. -/
theorem Below.exec {B : Comp S T σ} {p q : Prog (S.sum T) α} (h : Below p q) {st st' : σ} {tr : List (Event (S.sum T))}
    {a : α} (hex : Exec B p st tr a st') : Exec B q st tr a st' := by
  induction h generalizing st tr with
  | ret => exact hex
  | op _ ih =>
    cases hex with
    | env hex => exact .env (ih _ hex)
    | call hB hex => exact .call hB (ih _ hex)
  | stuck hnone =>
    cases hex with
    | @env _ _ x => exact hnone.elim x
    | @call _ _ _ _ x => exact hnone.elim x

end Effects.Prog
