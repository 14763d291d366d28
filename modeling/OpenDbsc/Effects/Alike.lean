/-
Programs that do alike.

`Alike R p q` says that `p` and `q` perform the same operations and, whatever
both are answered, return results that `R` relates. So one environment takes
both to the end, or neither.

`play_alike` is the use for it: a component whose calls do as a simpler one's
do can be replaced by it under a program. Calls outside `C` need not do alike
when the program makes none (`Calls`), and that may depend on what its
earlier calls were answered (`A`).
-/
import OpenDbsc.Effects.Run
import OpenDbsc.Effects.Total

namespace Effects.Prog

theorem rel_bind {α α' β β' : Type} {R : α → β → Prop} {R' : α' → β' → Prop} {o : Option α} {o' : Option β}
    {f : α → Option α'} {g : β → Option β'} (h : Option.Rel R o o') (hfg : ∀ a b, R a b → Option.Rel R' (f a) (g b)) :
    Option.Rel R' (o.bind f) (o'.bind g) := by
  rcases h with h | -
  · exact hfg _ _ h
  · exact .none

theorem rel_map {α α' β β' : Type} {R : α → β → Prop} {R' : α' → β' → Prop} {o : Option α} {o' : Option β}
    {f : α → α'} {g : β → β'} (h : Option.Rel R o o') (hfg : ∀ a b, R a b → R' (f a) (g b)) :
    Option.Rel R' (o.map f) (o'.map g) := by
  rcases h with h | -
  · exact .some (hfg _ _ h)
  · exact .none

variable {S T : Sig} {α α' β β' σ τ : Type}

inductive Alike (R : α → β → Prop) : Prog S α → Prog S β → Prop
  | ret {a b} : R a b → Alike R (ret a) (ret b)
  | op {o : S.Op} {k : S.Ans o → Prog S α} {k' : S.Ans o → Prog S β} :
      (∀ x, Alike R (k x) (k' x)) → Alike R (op o k) (op o k')

theorem alike_pure {R : α → β → Prop} {a : α} {b : β} (h : R a b) : Alike R (pure a : Prog S α) (pure b) := .ret h

theorem Alike.mono {R R' : α → β → Prop} {p : Prog S α} {q : Prog S β} (h : Alike R p q) (hR : ∀ a b, R a b → R' a b) :
    Alike R' p q := by
  induction h with
  | ret h => exact .ret (hR _ _ h)
  | op _ ih => exact .op ih

/-- A program that does as one that is over is over. -/
theorem Alike.over {R : α → β → Prop} {p : Prog S α} {b : β} (h : Alike R p (pure b)) : ∃ a, p = pure a ∧ R a b := by
  cases h with
  | ret h => exact ⟨_, rfl, h⟩

theorem Alike.bind {R : α → β → Prop} {R' : α' → β' → Prop} {p : Prog S α} {q : Prog S β} {f : α → Prog S α'}
    {g : β → Prog S β'} (h : Alike R p q) (hfg : ∀ a b, R a b → Alike R' (f a) (g b)) :
    Alike R' (p >>= f) (q >>= g) := by
  induction h with
  | ret h => exact hfg _ _ h
  | op _ ih => exact .op ih

/-- A program does as it does itself; of what it is sure to return, it is enough to speak once. -/
theorem Ensures.alike {p : Prog S α} {Q : α → Prop} (h : Ensures p Q) : Alike (fun a b => a = b ∧ Q a) p p := by
  induction p with
  | ret a => exact .ret ⟨rfl, h [] a .ret⟩
  | op o k ih => exact .op fun x => ih x fun tr a ht => h (⟨o, x⟩ :: tr) a (.op ht)

/-- What follows a program both begin with. -/
theorem Ensures.alike_bind {R : α' → β' → Prop} {p : Prog S α} {Q : α → Prop} {f : α → Prog S α'}
    {g : α → Prog S β'} (h : Ensures p Q) (hfg : ∀ a, Q a → Alike R (f a) (g a)) : Alike R (p >>= f) (p >>= g) := by
  refine h.alike.bind fun a b hab => ?_
  obtain ⟨rfl, ha⟩ := hab
  exact hfg a ha

theorem alike_bind {R : α' → β' → Prop} {p : Prog S α} {f : α → Prog S α'} {g : α → Prog S β'}
    (hfg : ∀ a, Alike R (f a) (g a)) : Alike R (p >>= f) (p >>= g) :=
  Ensures.alike_bind (Q := fun _ => True) (fun _ _ _ => trivial) fun a _ => hfg a

theorem Alike.follow {R : α → β → Prop} {p : Prog S α} {q : Prog S β} (h : Alike R p q)
    (env : Nat → (o : S.Op) → Option (S.Ans o)) (n : Nat) :
    Option.Rel (fun c c' => c.1 = c'.1 ∧ R c.2 c'.2) (follow env n p) (follow env n q) := by
  induction h generalizing n with
  | ret h => exact .some ⟨rfl, h⟩
  | @op o k k' _ ih =>
    simp only [Prog.follow]
    cases env n o with
    | none => exact .none
    | some x => exact rel_map (ih x (n + 1)) fun c c' h => ⟨by rw [h.1], h.2⟩

/-- What one is sure to return is related to what the other is. -/
theorem Alike.returns {R : α → β → Prop} {p : Prog S α} {q : Prog S β} (h : Alike R p q) {φ : Event S → Prop}
    {Q : β → Prop} (hq : Returns φ q Q) : Returns φ p fun a => ∃ b, R a b ∧ Q b := by
  induction h with
  | ret h => exact ⟨_, h, hq⟩
  | op _ ih => exact ⟨hq.1, fun x hx => ih x (hq.2 x hx)⟩

theorem Alike.ensures {R : α → β → Prop} {p : Prog S α} {q : Prog S β} (h : Alike R p q) {Q : β → Prop}
    (hq : Ensures q Q) : Alike (fun a b => R a b ∧ Q b) p q := by
  induction h with
  | ret h => exact .ret ⟨h, hq [] _ .ret⟩
  | @op o _ _ _ ih => exact .op fun x => ih x fun tr b ht => hq (⟨o, x⟩ :: tr) b (.op ht)

/-- What one can do, the other can. -/
theorem Alike.trace {R : α → β → Prop} {p : Prog S α} {q : Prog S β} (h : Alike R p q) {tr a} (ht : Trace p tr a) :
    ∃ b, Trace q tr b ∧ R a b := by
  induction ht generalizing q with
  | ret =>
    cases h with
    | ret h => exact ⟨_, .ret, h⟩
  | op _ ih =>
    cases h with
    | op h =>
      obtain ⟨b, ht, hR⟩ := ih (h _)
      exact ⟨b, .op ht, hR⟩

theorem Alike.answerable {R : α → β → Prop} {p : Prog S α} {q : Prog S β} (h : Alike R p q) :
    p.Answerable ↔ q.Answerable := by
  induction h with
  | ret => exact Iff.rfl
  | op _ ih => exact and_congr Iff.rfl (forall_congr' ih)

/-! ## Programs against components that do alike -/

/-- The calls of `p` are in `C` and what it returns satisfies `Q`, as long as
its calls are answered as `A` says. -/
def Calls (C : T.Op → Prop) (A : (o : T.Op) → T.Ans o → Prop) (Q : α → Prop) : Prog (S.sum T) α → Prop
  | ret a => Q a
  | op (.inl _) k => ∀ x, Calls C A Q (k x)
  | op (.inr o) k => C o ∧ ∀ x, A o x → Calls C A Q (k x)

section

variable {C : T.Op → Prop} {A : (o : T.Op) → T.Ans o → Prop} {P : α → Prop} {Q : β → Prop}

@[simp] theorem calls_pure {a : α} : Calls C A P (pure a : Prog (S.sum T) α) ↔ P a := Iff.rfl

theorem Calls.bind {p : Prog (S.sum T) α} {f : α → Prog (S.sum T) β} (hp : Calls C A P p)
    (hf : ∀ a, P a → Calls C A Q (f a)) : Calls C A Q (p >>= f) := by
  induction p with
  | ret a => exact hf a hp
  | op o k ih =>
    cases o with
    | inl o => exact fun x => ih x (hp x)
    | inr o => exact ⟨hp.1, fun x hx => ih x (hp.2 x hx)⟩

theorem Calls.map {p : Prog (S.sum T) α} {g : α → β} (hp : Calls C A (fun a => Q (g a)) p) : Calls C A Q (g <$> p) := by
  rw [← bind_pure_comp]
  exact hp.bind fun _ ha => ha

theorem Ensures.calls {p : Prog S α} (h : Ensures p P) : Calls C A P (p.lift (T := T)) := by
  induction p with
  | ret a => exact h [] a .ret
  | op o k ih => exact fun x => ih x fun tr a ht => h (⟨o, x⟩ :: tr) a (.op ht)

theorem calls_lift (p : Prog S α) : Calls C A (fun _ => True) (p.lift (T := T)) :=
  Ensures.calls fun _ _ _ => trivial

theorem calls_call {o : T.Op} (h : C o) : Calls C A (A o) (call (S := S) o) := ⟨h, fun _ hx => hx⟩

/-- **Components that do alike are played alike**: the same events, the same
result, and states that are related still. -/
theorem play_alike {B : Impl S T σ} {B' : Impl S T τ} {R : σ → τ → Prop}
    (hcall : ∀ o st t, C o → R st t →
      Alike (fun c c' => c.1 = c'.1 ∧ A o c.1 ∧ R c.2 c'.2) (B o st) (B' o t))
    (env : Nat → (o : S.Op) → Option (S.Ans o)) {p : Prog (S.sum T) α} {st : σ} {t : τ} (hp : Calls C A P p)
    (hR : R st t) (n : Nat) :
    Option.Rel (fun r r' => r.1 = r'.1 ∧ r.2.1 = r'.2.1 ∧ R r.2.2 r'.2.2) (play env B n p st) (play env B' n p t) := by
  induction p generalizing st t n with
  | ret a => exact .some ⟨rfl, rfl, hR⟩
  | op o k ih =>
    cases o with
    | inl o =>
      simp only [play]
      cases env n o with
      | none => exact .none
      | some x => exact rel_map (ih x (hp x) hR (n + 1)) fun r r' h => ⟨by rw [h.1], h.2⟩
    | inr o =>
      refine rel_bind ((hcall o st t hp.1 hR).follow env n) fun c c' hc => ?_
      obtain ⟨tr, x, st₁⟩ := c
      obtain ⟨tr', x', t₁⟩ := c'
      obtain ⟨rfl, rfl, hx, hR₁⟩ := hc
      exact rel_map (ih x (hp.2 x hx) hR₁ (n + tr.length)) fun r r' h => ⟨by rw [h.1], h.2⟩

/-- Their runs have the same calls. -/
theorem run_alike {B : Impl S T σ} {B' : Impl S T τ} {R : σ → τ → Prop}
    (hcall : ∀ o st t, R st t → Alike (fun c c' => c.1 = c'.1 ∧ R c.2 c'.2) (B o st) (B' o t)) {st t h st'} (hR : R st t)
    (hrun : Run B.comp.Step st h st') : ∃ h' t', Run B'.comp.Step t h' t' ∧ h'.map (·.label) = h.map (·.label) ∧ R st' t' := by
  refine hrun.refine hR fun {s l s' t} hR hs => ?_
  obtain ⟨⟨x, t'⟩, ht, hx, hR'⟩ := (hcall l.op s t hR).trace hs
  obtain rfl : l.ans = x := hx
  exact ⟨t', ht, hR'⟩

/-- Calls in sequence, the `n`-th of them in the environment `env n`. -/
def playInTurn (env : Nat → Nat → (o : S.Op) → Option (S.Ans o)) (B : Impl S T σ) :
    List T.Op → Nat → σ → Option (List (Transition σ (Call S T)) × σ)
  | [], _, st => some ([], st)
  | o :: os, n, st => (follow (env n) 0 (B o st)).bind fun c =>
      (playInTurn env B os (n + 1) c.2.2).map fun r => (⟨st, ⟨o, c.1, c.2.1⟩, c.2.2⟩ :: r.1, r.2)

theorem run_playInTurn {env : Nat → Nat → (o : S.Op) → Option (S.Ans o)} {B : Impl S T σ} {os : List T.Op} {n : Nat}
    {st h st'} (hplay : playInTurn env B os n st = some (h, st')) : Run B.comp.Step st h st' := by
  induction os generalizing n st h with
  | nil =>
    cases hplay
    exact .init
  | cons o os ih =>
    simp only [playInTurn, Option.bind_eq_some_iff, Option.map_eq_some_iff, Prod.ext_iff] at hplay
    obtain ⟨⟨tr, x, st₁⟩, hcall, ⟨h', st₂⟩, hr, rfl, rfl⟩ := hplay
    have hstep : B.comp.Step st ⟨o, tr, x⟩ st₁ := trace_follow hcall
    exact .cons hstep (ih hr)

end

end Effects.Prog
