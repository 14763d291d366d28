/-
Programs that return, whatever they are answered.

A program ends without a result only where it performs an operation that has
no answer. An answerable program never does; against a component, `Safe B p st`
says that `p` never does from state `st`. `Safe.play` is what it comes to: a
program is played to its end by every environment that answers what has an
answer, and it is enough that it is safe over a simpler component.
-/
import OpenDbsc.Effects.Link

namespace Effects.Prog

variable {S T : Sig} {α β σ τ : Type}

/-- Every operation `p` can come to has an answer. -/
def Answerable : Prog S α → Prop
  | ret _ => True
  | op o k => Nonempty (S.Ans o) ∧ ∀ x, (k x).Answerable

@[simp] theorem answerable_pure (a : α) : (pure a : Prog S α).Answerable := trivial

theorem answerable_perform {o : S.Op} (h : Nonempty (S.Ans o)) : (perform o).Answerable := ⟨h, fun _ => trivial⟩

theorem Answerable.bind {p : Prog S α} {f : α → Prog S β} (hp : p.Answerable) (hf : ∀ a, (f a).Answerable) :
    (p >>= f).Answerable := by
  induction p with
  | ret a => exact hf a
  | op o k ih => exact ⟨hp.1, fun x => ih x (hp.2 x)⟩

theorem answerable_bind {p : Prog S α} {f : α → Prog S β} (hf : ∀ a, (f a).Answerable) :
    (p >>= f).Answerable ↔ p.Answerable := by
  induction p with
  | ret a => exact ⟨fun _ => trivial, fun _ => hf a⟩
  | op o k ih => exact and_congr Iff.rfl (forall_congr' ih)

/-- What `p` returns is all that `f` has to go on from. -/
theorem Answerable.bind_of_ensures {p : Prog S α} {P : α → Prop} {f : α → Prog S β} (hp : p.Answerable)
    (hP : Ensures p P)
    (hf : ∀ a, P a → (f a).Answerable) : (p >>= f).Answerable := by
  induction p with
  | ret a => exact hf a (hP [] a .ret)
  | op o k ih => exact ⟨hp.1, fun x => ih x (hp.2 x) fun tr a ht => hP (⟨o, x⟩ :: tr) a (.op ht)⟩

theorem Answerable.map {p : Prog S α} (g : α → β) (hp : p.Answerable) : (g <$> p).Answerable := by
  rw [← bind_pure_comp]
  exact hp.bind fun _ => trivial

theorem follow_isSome {f : (o : S.Op) → Option (S.Ans o)} {env : Nat → (o : S.Op) → Option (S.Ans o)}
    (henv : ∀ n o, Nonempty (S.Ans o) → (env n o).isSome = true) (hf : ∀ n o x, f o = some x → env n o = some x)
    {p : Prog S α} (hp : (p.assuming f).Answerable) (n : Nat) : (follow env n p).isSome = true := by
  induction p generalizing n with
  | ret a => rfl
  | op o k ih =>
    cases hfo : f o with
    | some x =>
      rw [assuming_op_some hfo] at hp
      rw [follow, hf n o x hfo, Option.bind_some, Option.isSome_map]
      exact ih x hp (n + 1)
    | none =>
      rw [assuming_op_none hfo] at hp
      obtain ⟨x, hx⟩ := Option.isSome_iff_exists.mp (henv n o hp.1)
      rw [follow, hx, Option.bind_some, Option.isSome_map]
      exact ih x (hp.2 x) (n + 1)

/-- `p` never comes to an operation without an answer, against `B` from `st`. -/
def Safe (B : Comp S T σ) : Prog (S.sum T) α → σ → Prop
  | ret _, _ => True
  | op (.inl o) k, st => Nonempty (S.Ans o) ∧ ∀ x, Safe B (k x) st
  | op (.inr o) k, st => ∀ tr x st', B o st tr x st' → Safe B (k x) st'

variable {B : Comp S T σ}

@[simp] theorem safe_pure (a : α) (st : σ) : Safe B (pure a : Prog (S.sum T) α) st := trivial

theorem Safe.bind {p : Prog (S.sum T) α} {f : α → Prog (S.sum T) β} {st : σ} (hp : Safe B p st)
    (hf : ∀ tr a st', Exec B p st tr a st' → Safe B (f a) st') : Safe B (p >>= f) st := by
  induction p generalizing st with
  | ret a => exact hf [] a st .ret
  | op o k ih =>
    cases o with
    | inl o => exact ⟨hp.1, fun x => ih x (hp.2 x) fun tr a st' hex => hf _ a st' (.env hex)⟩
    | inr o => exact fun tr x st₁ hB => ih x (hp tr x st₁ hB) fun tr' a st' hex => hf _ a st' (.call hB hex)

theorem Safe.map {p : Prog (S.sum T) α} {st : σ} (g : α → β) (hp : Safe B p st) : Safe B (g <$> p) st := by
  rw [← bind_pure_comp]
  exact hp.bind fun _ _ _ _ => trivial

theorem Answerable.safe_lift {p : Prog S α} (hp : p.Answerable) (st : σ) : Safe B (p.lift (T := T)) st := by
  induction p with
  | ret a => trivial
  | op o k ih => exact ⟨hp.1, fun x => ih x (hp.2 x)⟩

theorem safe_call (o : T.Op) (st : σ) : Safe B (call o) st := fun _ _ _ _ => trivial

/-- **A safe program returns.** When each call of `B` that obeys `f` is matched
by one of `B'`, over which what is left of `p` is safe, every environment that
answers what has an answer, and as `f` does, plays `p` to its end. -/
theorem Safe.play {f : (o : S.Op) → Option (S.Ans o)} {B : Impl S T σ} {B' : Comp S T τ} {R : σ → τ → Prop}
    (hcall : ∀ {o st tr x st' t}, R st t → B.comp o st tr x st' → Obeys f tr →
      ∃ t', B' o t (tr.filter fun e => (f e.op).isNone) x t' ∧ R st' t')
    (hB : ∀ o st, ((B o st).assuming f).Answerable) {env : Nat → (o : S.Op) → Option (S.Ans o)}
    (henv : ∀ n o, Nonempty (S.Ans o) → (env n o).isSome = true) (hf : ∀ n o x, f o = some x → env n o = some x)
    {p : Prog (S.sum T) α} {st : σ} {t : τ} (hsafe : Safe B' (p.assuming (onEnv f)) t) (hR : R st t) (n : Nat) :
    (play env B n p st).isSome = true := by
  induction p generalizing st t n with
  | ret a => rfl
  | op o k ih =>
    cases o with
    | inl o =>
      cases hfo : f o with
      | some x =>
        rw [assuming_env_some hfo] at hsafe
        rw [Prog.play, hf n o x hfo, Option.bind_some, Option.isSome_map]
        exact ih x hsafe hR (n + 1)
      | none =>
        rw [assuming_env_none hfo] at hsafe
        obtain ⟨x, hx⟩ := Option.isSome_iff_exists.mp (henv n o hsafe.1)
        rw [Prog.play, hx, Option.bind_some, Option.isSome_map]
        exact ih x (hsafe.2 x) hR (n + 1)
    | inr o =>
      rw [assuming_op_call] at hsafe
      obtain ⟨⟨tr, x, st'⟩, hfollow⟩ := Option.isSome_iff_exists.mp (follow_isSome henv hf (hB o st) n)
      obtain ⟨t', hB', hR'⟩ := hcall hR (trace_follow hfollow) (obeys_follow hf hfollow)
      rw [Prog.play, hfollow, Option.bind_some, Option.isSome_map]
      exact ih x (hsafe _ x t' hB') hR' _

end Effects.Prog
