/-
Programs over two layers of effects, the second a component on the first.

A program over `S.sum T` performs operations of the environment (`S`) and
calls on a component (`T`). A `Comp S T σ` says what the component's calls
can do: the events each causes, its answer and the state it leaves; an
`Impl S T σ` is a component written as programs over `S`. `Exec B p st tr a
st'` runs `p` against `B` from state `st`; `tr` has the environment's events,
the component's own included, and each call with its answer, at the end of
the events it caused.

`Exec.refine` is the reason for the two views: a component that refines a
simpler one can be replaced by it under every program.
-/
import OpenDbsc.Effects.Prog

namespace Effects

open Prog

abbrev Sig.sum (S T : Sig) : Sig where
  Op := S.Op ⊕ T.Op
  Ans
    | .inl o => S.Ans o
    | .inr o => T.Ans o

namespace Event

variable {S T : Sig}

def inl (e : Event S) : Event (S.sum T) := ⟨.inl e.op, e.ans⟩

end Event

/-- A component with state `σ`: what a call can do. -/
abbrev Comp (S T : Sig) (σ : Type) := (o : T.Op) → σ → List (Event S) → T.Ans o → σ → Prop

/-- A component's calls as programs. -/
abbrev Impl (S T : Sig) (σ : Type) := (o : T.Op) → σ → Prog S (T.Ans o × σ)

def Impl.comp {S T : Sig} {σ : Type} (B : Impl S T σ) : Comp S T σ :=
  fun o st tr x st' => Trace (B o st) tr (x, st')

/-- A call, with what it caused and answered. -/
structure Call (S T : Sig) where
  op : T.Op
  events : List (Event S)
  ans : T.Ans op

/-- A component as a transition system. -/
def Comp.Step {S T : Sig} {σ : Type} (B : Comp S T σ) (st : σ) (c : Call S T) (st' : σ) : Prop :=
  B c.op st c.events c.ans st'

namespace Prog

variable {S T : Sig} {α β σ τ : Type}

/-- A program of the first layer, as one of both. -/
def lift : Prog S α → Prog (S.sum T) α
  | ret a => ret a
  | op o k => op (.inl o) fun x => (k x).lift

instance : MonadLift (Prog S) (Prog (S.sum T)) := ⟨lift⟩

@[simp] theorem liftM_eq_lift (p : Prog S α) : (liftM p : Prog (S.sum T) α) = p.lift := rfl

@[simp] theorem monadLift_eq_lift (p : Prog S α) : (monadLift p : Prog (S.sum T) α) = p.lift := rfl

@[simp] theorem lift_pure (a : α) : (pure a : Prog S α).lift (T := T) = pure a := rfl

@[simp] theorem lift_bind (p : Prog S α) (f : α → Prog S β) :
    (p >>= f).lift (T := T) = p.lift >>= fun a => (f a).lift := by
  induction p with
  | ret a => rfl
  | op o k ih => simp only [op_bind, lift, ih]

@[simp] theorem lift_map (g : α → β) (p : Prog S α) : (g <$> p).lift (T := T) = g <$> p.lift := by
  rw [← bind_pure_comp, lift_bind]
  rfl

/-- A call on the component. -/
def call (o : T.Op) : Prog (S.sum T) (T.Ans o) := perform (S := S.sum T) (.inr o)

theorem trace_lift {p : Prog S α} {tr a} :
    Trace (p.lift (T := T)) tr a ↔ ∃ tr', tr = tr'.map Event.inl ∧ Trace p tr' a := by
  induction p generalizing tr with
  | ret b =>
    constructor
    · rintro ⟨⟩; exact ⟨[], rfl, .ret⟩
    · rintro ⟨_, rfl, ⟨⟩⟩; exact .ret
  | op o k ih =>
    simp only [lift, trace_op]
    constructor
    · rintro ⟨x, _, rfl, h⟩
      obtain ⟨tr', rfl, htr'⟩ := (ih x).mp h
      exact ⟨_, rfl, x, tr', rfl, htr'⟩
    · rintro ⟨_, rfl, x, tr', rfl, h⟩
      exact ⟨x, _, rfl, (ih x).mpr ⟨tr', rfl, h⟩⟩

theorem Trace.unique_lift {p : Prog S α} {tr₁ tr₂ : List (Event S)} {rest₁ rest₂ : List (Event (S.sum T))} {a b : α}
    (h₁ : Trace p tr₁ a) (h₂ : Trace p tr₂ b) (h : tr₁.map Event.inl ++ rest₁ = tr₂.map Event.inl ++ rest₂) :
    a = b ∧ rest₁ = rest₂ :=
  ((trace_lift.mpr ⟨tr₁, rfl, h₁⟩).unique (trace_lift.mpr ⟨tr₂, rfl, h₂⟩) h).2

theorem Ensures.lift {p : Prog S α} {Q : α → Prop} (h : Ensures p Q) : Ensures (p.lift (T := T)) Q := by
  intro tr a ht
  obtain ⟨tr', -, ht'⟩ := trace_lift.mp ht
  exact h tr' a ht'

@[simp] theorem trace_call {o : T.Op} {tr} {x : T.Ans o} :
    Trace (call (S := S) o) tr x ↔ tr = [⟨.inr o, x⟩] := trace_perform

/-- A run of `p` against the component `B`. -/
inductive Exec (B : Comp S T σ) : Prog (S.sum T) α → σ → List (Event (S.sum T)) → α → σ → Prop
  | ret {a : α} {st} : Exec B (.ret a) st [] a st
  | env {o : S.Op} {k : S.Ans o → Prog (S.sum T) α} {x st tr a st'} :
      Exec B (k x) st tr a st' → Exec B (.op (.inl o) k) st (⟨.inl o, x⟩ :: tr) a st'
  | call {o : T.Op} {k : T.Ans o → Prog (S.sum T) α} {st tr₁ x st₁ tr a st'} :
      B o st tr₁ x st₁ → Exec B (k x) st₁ tr a st' →
      Exec B (.op (.inr o) k) st (tr₁.map Event.inl ++ ⟨.inr o, x⟩ :: tr) a st'

variable {B : Comp S T σ}

@[simp] theorem exec_pure {a b : α} {st st' tr} :
    Exec B (pure a) st tr b st' ↔ tr = [] ∧ b = a ∧ st' = st := by
  constructor
  · rintro ⟨⟩; exact ⟨rfl, rfl, rfl⟩
  · rintro ⟨rfl, rfl, rfl⟩; exact .ret

theorem exec_env {o : S.Op} {k : S.Ans o → Prog (S.sum T) α} {st tr a st'} :
    Exec B (op (.inl o) k) st tr a st' ↔ ∃ x tr', tr = ⟨.inl o, x⟩ :: tr' ∧ Exec B (k x) st tr' a st' := by
  constructor
  · intro h
    cases h with
    | env h => exact ⟨_, _, rfl, h⟩
  · rintro ⟨x, tr', rfl, h⟩; exact .env h

theorem exec_op_call {o : T.Op} {k : T.Ans o → Prog (S.sum T) α} {st tr a st'} :
    Exec B (op (.inr o) k) st tr a st' ↔ ∃ tr₁ x st₁ tr₂, tr = tr₁.map Event.inl ++ ⟨.inr o, x⟩ :: tr₂ ∧
      B o st tr₁ x st₁ ∧ Exec B (k x) st₁ tr₂ a st' := by
  constructor
  · intro h
    cases h with
    | call h₁ h₂ => exact ⟨_, _, _, _, rfl, h₁, h₂⟩
  · rintro ⟨tr₁, x, st₁, tr₂, rfl, h₁, h₂⟩; exact .call h₁ h₂

theorem exec_bind {p : Prog (S.sum T) α} {f : α → Prog (S.sum T) β} {st tr b st'} :
    Exec B (p >>= f) st tr b st' ↔
      ∃ tr₁ a st₁ tr₂, tr = tr₁ ++ tr₂ ∧ Exec B p st tr₁ a st₁ ∧ Exec B (f a) st₁ tr₂ b st' := by
  induction p generalizing st tr with
  | ret a =>
    constructor
    · exact fun h => ⟨[], a, st, tr, rfl, .ret, h⟩
    · rintro ⟨_, _, _, _, rfl, ⟨⟩, h⟩; exact h
  | op o k ih =>
    rw [op_bind]
    cases o with
    | inl o =>
      simp only [exec_env]
      constructor
      · rintro ⟨x, tr', rfl, h⟩
        obtain ⟨tr₁, a, st₁, tr₂, rfl, h₁, h₂⟩ := (ih x).mp h
        exact ⟨⟨.inl o, x⟩ :: tr₁, a, st₁, tr₂, rfl, ⟨x, tr₁, rfl, h₁⟩, h₂⟩
      · rintro ⟨_, a, st₁, tr₂, rfl, ⟨x, tr₁, rfl, h₁⟩, h₂⟩
        exact ⟨x, tr₁ ++ tr₂, rfl, (ih x).mpr ⟨tr₁, a, st₁, tr₂, rfl, h₁, h₂⟩⟩
    | inr o =>
      simp only [exec_op_call]
      constructor
      · rintro ⟨tr₀, x, st₀, tr', rfl, hB, h⟩
        obtain ⟨tr₁, a, st₁, tr₂, rfl, h₁, h₂⟩ := (ih x).mp h
        exact ⟨tr₀.map Event.inl ++ ⟨.inr o, x⟩ :: tr₁, a, st₁, tr₂, by simp,
          ⟨tr₀, x, st₀, tr₁, rfl, hB, h₁⟩, h₂⟩
      · rintro ⟨_, a, st₁, tr₂, rfl, ⟨tr₀, x, st₀, tr₁, rfl, hB, h₁⟩, h₂⟩
        exact ⟨tr₀, x, st₀, tr₁ ++ tr₂, by simp, hB, (ih x).mpr ⟨tr₁, a, st₁, tr₂, rfl, h₁, h₂⟩⟩

theorem exec_map {p : Prog (S.sum T) α} {g : α → β} {st tr b st'} :
    Exec B (g <$> p) st tr b st' ↔ ∃ a, b = g a ∧ Exec B p st tr a st' := by
  rw [← bind_pure_comp, exec_bind]
  constructor
  · intro h
    obtain ⟨tr₁, a, st₁, tr₂, rfl, hp, hpure⟩ := h
    obtain ⟨rfl, rfl, rfl⟩ := exec_pure.mp hpure
    exact ⟨a, rfl, by rwa [List.append_nil]⟩
  · intro h
    obtain ⟨a, rfl, hp⟩ := h
    exact ⟨tr, a, st', [], (List.append_nil tr).symm, hp, .ret⟩

theorem exec_lift {p : Prog S α} {st tr a st'} :
    Exec B p.lift st tr a st' ↔ st' = st ∧ ∃ tr', tr = tr'.map Event.inl ∧ Trace p tr' a := by
  induction p generalizing tr with
  | ret b =>
    simp only [lift, ret_eq_pure, exec_pure, trace_pure]
    constructor
    · rintro ⟨rfl, rfl, rfl⟩; exact ⟨rfl, [], rfl, rfl, rfl⟩
    · rintro ⟨rfl, _, rfl, rfl, rfl⟩; exact ⟨rfl, rfl, rfl⟩
  | op o k ih =>
    simp only [lift, exec_env, trace_op, ih]
    constructor
    · rintro ⟨x, _, rfl, rfl, tr', rfl, h⟩
      exact ⟨rfl, ⟨o, x⟩ :: tr', rfl, x, tr', rfl, h⟩
    · rintro ⟨rfl, _, rfl, x, tr', rfl, h⟩
      exact ⟨x, tr'.map Event.inl, rfl, rfl, tr', rfl, h⟩

theorem exec_call {o : T.Op} {st tr x st'} :
    Exec B (call o) st tr x st' ↔ ∃ tr₁, tr = tr₁.map Event.inl ++ [⟨.inr o, x⟩] ∧ B o st tr₁ x st' := by
  rw [call, perform, exec_op_call]
  constructor
  · rintro ⟨tr₁, y, st₁, tr₂, rfl, hB, ⟨⟩⟩; exact ⟨tr₁, rfl, hB⟩
  · rintro ⟨tr₁, rfl, hB⟩; exact ⟨tr₁, x, st', [], rfl, hB, .ret⟩

/-- A run is one of the program's traces, whatever the component does. -/
theorem Exec.trace {p : Prog (S.sum T) α} {st tr a st'} (h : Exec B p st tr a st') : ∃ tr', Trace p tr' a := by
  induction h with
  | ret => exact ⟨[], .ret⟩
  | env _ ih =>
    obtain ⟨tr', ht⟩ := ih
    exact ⟨_, .op ht⟩
  | call _ _ ih =>
    obtain ⟨tr', ht⟩ := ih
    exact ⟨_, .op ht⟩

/-- The component that answers anything. -/
def anyComp : Comp S T Unit := fun _ _ tr _ _ => tr = []

theorem Trace.exec_anyComp {p : Prog (S.sum T) α} {tr a} (h : Trace p tr a) : Exec anyComp p () tr a () := by
  induction h with
  | ret => exact .ret
  | @op o _ _ _ _ _ ih =>
    cases o with
    | inl o => exact .env ih
    | inr o => exact .call rfl ih

/-- Against a component that causes no events, its trace is the run's. -/
theorem Exec.trace_eq (hB : ∀ o st tr x st', B o st tr x st' → tr = []) {p : Prog (S.sum T) α} {st tr a st'}
    (h : Exec B p st tr a st') : Trace p tr a := by
  induction h with
  | ret => exact .ret
  | env _ ih => exact .op ih
  | call hcall _ ih =>
    obtain rfl := hB _ _ _ _ _ hcall
    exact .op ih

/-- The state a component goes through as it answers the calls in a list of events. -/
inductive Along (B : Comp S T σ) : σ → List (Event (S.sum T)) → σ → Prop
  | nil {st} : Along B st [] st
  | env {o : S.Op} {x st tr st'} : Along B st tr st' → Along B st (⟨.inl o, x⟩ :: tr) st'
  | call {o : T.Op} {st tr₁ x st₁ tr st'} :
      B o st tr₁ x st₁ → Along B st₁ tr st' → Along B st (⟨.inr o, x⟩ :: tr) st'

theorem Exec.along (hB : ∀ o st tr x st', B o st tr x st' → tr = []) {p : Prog (S.sum T) α} {st tr a st'}
    (h : Exec B p st tr a st') : Along B st tr st' := by
  induction h with
  | ret => exact .nil
  | env _ ih => exact .env ih
  | call hcall _ ih =>
    obtain rfl := hB _ _ _ _ _ hcall
    exact .call hcall ih

theorem Along.call_inv {o : T.Op} {x : T.Ans o} {st st' : σ} {tr} (h : Along B st (⟨.inr o, x⟩ :: tr) st') :
    ∃ tr₁ st₁, B o st tr₁ x st₁ ∧ Along B st₁ tr st' := by
  cases h with
  | call hcall hrest => exact ⟨_, _, hcall, hrest⟩

theorem Along.env_inv {tr : List (Event S)} {rest : List (Event (S.sum T))} {st st' : σ}
    (h : Along B st (tr.map Event.inl ++ rest) st') : Along B st rest st' := by
  induction tr with
  | nil => exact h
  | cons e tr ih =>
    cases h with
    | env h => exact ih h

/-- What every answer among the events keeps holds after them. -/
theorem Along.invariant {P : σ → Prop} {st tr st'} (h : Along B st tr st') (hinit : P st)
    (hstep : ∀ {o st tr₁ x st₁}, (⟨.inr o, x⟩ : Event (S.sum T)) ∈ tr → P st → B o st tr₁ x st₁ → P st₁) : P st' := by
  induction h with
  | nil => exact hinit
  | env _ ih => exact ih hinit fun hmem => hstep (List.mem_cons_of_mem _ hmem)
  | call hcall _ ih => exact ih (hstep List.mem_cons_self hinit hcall) fun hmem => hstep (List.mem_cons_of_mem _ hmem)

/-- The events of the environment before a call are told by the whole list. -/
theorem map_inl_append_call_inj (tr₁ : List (Event S)) {tr₂ : List (Event S)} {o₁ o₂ : T.Op} {x₁ : T.Ans o₁}
    {x₂ : T.Ans o₂}
    {rest₁ rest₂ : List (Event (S.sum T))}
    (h : tr₁.map Event.inl ++ ⟨.inr o₁, x₁⟩ :: rest₁ = tr₂.map Event.inl ++ ⟨.inr o₂, x₂⟩ :: rest₂) :
    tr₁ = tr₂ ∧ (⟨o₁, x₁⟩ : Event T) = ⟨o₂, x₂⟩ ∧ rest₁ = rest₂ := by
  induction tr₁ generalizing tr₂ with
  | nil =>
    cases tr₂ with
    | nil =>
      cases h
      exact ⟨rfl, rfl, rfl⟩
    | cons e tr₂ => cases h
  | cons e tr₁ ih =>
    cases tr₂ with
    | nil => cases h
    | cons e' tr₂ =>
      obtain ⟨he, htail⟩ := List.cons.inj h
      obtain ⟨rfl, hcall, hrest⟩ := ih htail
      cases e
      cases e'
      cases he
      exact ⟨rfl, hcall, hrest⟩

theorem Ensures.exec {p : Prog (S.sum T) α} {Q : α → Prop} (h : Ensures p Q) {st tr a st'}
    (hex : Exec B p st tr a st') :
    Q a := by
  obtain ⟨tr', ht⟩ := hex.trace
  exact h tr' a ht

/-- A run against a component is one against a component that answers more freely. -/
theorem Exec.component {B' : Comp S T σ} (hsub : ∀ o st tr x st', B o st tr x st' → B' o st tr x st')
    {p : Prog (S.sum T) α} {st tr a st'} (h : Exec B p st tr a st') : Exec B' p st tr a st' := by
  induction h with
  | ret => exact .ret
  | env _ ih => exact .env ih
  | call hB _ ih => exact .call (hsub _ _ _ _ _ hB) ih

/-- `p` against `B`, in the environment that answers its `n`-th operation by `env n`. -/
def play (env : Nat → (o : S.Op) → Option (S.Ans o)) (B : Impl S T σ) :
    Nat → Prog (S.sum T) α → σ → Option (List (Event (S.sum T)) × α × σ)
  | _, ret a, st => some ([], a, st)
  | n, op (.inl o) k, st => (env n o).bind fun x =>
      (play env B (n + 1) (k x) st).map fun r => (⟨.inl o, x⟩ :: r.1, r.2)
  | n, op (.inr o) k, st => (follow env n (B o st)).bind fun c =>
      (play env B (n + c.1.length) (k c.2.1) c.2.2).map fun r =>
        (c.1.map Event.inl ++ ⟨.inr o, c.2.1⟩ :: r.1, r.2)

theorem exec_play {env : Nat → (o : S.Op) → Option (S.Ans o)} {B : Impl S T σ} {n : Nat}
    {p : Prog (S.sum T) α} {st tr a st'} (h : play env B n p st = some (tr, a, st')) :
    Exec B.comp p st tr a st' := by
  induction p generalizing n st tr with
  | ret b =>
    simp only [play, Option.some.injEq, Prod.mk.injEq] at h
    obtain ⟨rfl, rfl, rfl⟩ := h
    exact .ret
  | op o k ih =>
    cases o with
    | inl o =>
      simp only [play, Option.bind_eq_some_iff, Option.map_eq_some_iff, Prod.ext_iff] at h
      obtain ⟨x, -, ⟨tr', a', st''⟩, hr, rfl, rfl, rfl⟩ := h
      exact .env (ih x hr)
    | inr o =>
      simp only [play, Option.bind_eq_some_iff, Option.map_eq_some_iff, Prod.ext_iff] at h
      obtain ⟨⟨tr₁, x, st₁⟩, hB, ⟨tr', a', st''⟩, hr, rfl, rfl, rfl⟩ := h
      exact .call (trace_follow hB) (ih x hr)

/-! ## Answering environment operations in advance -/

/-- `f` on the environment's operations; a call is left to the component. -/
def onEnv (f : (o : S.Op) → Option (S.Ans o)) : (o : (S.sum T).Op) → Option ((S.sum T).Ans o)
  | .inl o => f o
  | .inr _ => none

variable {f : (o : S.Op) → Option (S.Ans o)}

theorem assuming_env_some {o : S.Op} {x : S.Ans o} (h : f o = some x) (k : S.Ans o → Prog (S.sum T) α) :
    (op (S := S.sum T) (.inl o) k).assuming (onEnv f) = (k x).assuming (onEnv f) := by
  simp only [assuming, onEnv, h]

theorem assuming_env_none {o : S.Op} (h : f o = none) (k : S.Ans o → Prog (S.sum T) α) :
    (op (S := S.sum T) (.inl o) k).assuming (onEnv f) =
      op (S := S.sum T) (.inl o) fun x => (k x).assuming (onEnv f) := by
  simp only [assuming, onEnv, h]

theorem assuming_op_call {o : T.Op} (k : T.Ans o → Prog (S.sum T) α) :
    (op (S := S.sum T) (.inr o) k).assuming (onEnv f) =
      op (S := S.sum T) (.inr o) fun x => (k x).assuming (onEnv f) := by
  simp only [assuming, onEnv]

@[simp] theorem assuming_lift (p : Prog S α) :
    (p.lift (T := T)).assuming (onEnv f) = (p.assuming f).lift := by
  induction p with
  | ret a => rfl
  | op o k ih =>
    cases h : f o with
    | some x => rw [lift, assuming_env_some h, assuming_op_some h, ih]
    | none =>
      rw [lift, assuming_env_none h, assuming_op_none h, lift]
      simp only [ih]

@[simp] theorem assuming_call (o : T.Op) : (call o : Prog (S.sum T) _).assuming (onEnv f) = call o :=
  assuming_perform_none rfl

theorem obeys_map_inl {tr : List (Event S)} :
    Obeys (onEnv (T := T) f) (tr.map Event.inl) ↔ Obeys f tr := by
  constructor
  · exact fun h e he => h e.inl (List.mem_map_of_mem he)
  · intro h _ he
    obtain ⟨e, hmem, rfl⟩ := List.mem_map.mp he
    exact h e hmem

theorem filter_map_inl (tr : List (Event S)) :
    (tr.map (Event.inl (T := T))).filter (fun e => (onEnv f e.op).isNone) =
      (tr.filter fun e => (f e.op).isNone).map Event.inl := by
  rw [List.filter_map]; rfl

theorem obeys_play {env : Nat → (o : S.Op) → Option (S.Ans o)} (henv : ∀ n o x, f o = some x → env n o = some x)
    {B : Impl S T σ} {n : Nat} {p : Prog (S.sum T) α} {st tr a st'} (h : play env B n p st = some (tr, a, st')) :
    Obeys (onEnv (T := T) f) tr := by
  induction p generalizing n st tr with
  | ret b =>
    simp only [play, Option.some.injEq, Prod.mk.injEq] at h
    obtain ⟨rfl, -, -⟩ := h
    intro e he
    cases he
  | op o k ih =>
    cases o with
    | inl o =>
      simp only [play, Option.bind_eq_some_iff, Option.map_eq_some_iff, Prod.ext_iff] at h
      obtain ⟨x, hx, ⟨tr', a', st''⟩, hr, rfl, rfl, rfl⟩ := h
      intro e he y hy
      rcases List.mem_cons.mp he with rfl | he
      · exact Option.some.inj (hx.symm.trans (henv n o y hy))
      · exact ih x hr e he y hy
    | inr o =>
      simp only [play, Option.bind_eq_some_iff, Option.map_eq_some_iff, Prod.ext_iff] at h
      obtain ⟨⟨tr₁, x, st₁⟩, hB, ⟨tr', a', st''⟩, hr, rfl, rfl, rfl⟩ := h
      refine (obeys_map_inl.mpr (obeys_follow henv hB)).append ?_
      intro e he y hy
      rcases List.mem_cons.mp he with rfl | he
      · cases hy
      · exact ih x hr e he y hy

/-! ## Refinement -/

/-- When each call of `B` is matched by one of `B'` with the same events, so is each run. -/
theorem Exec.simulate {B' : Comp S T τ} {R : σ → τ → Prop}
    (hcall : ∀ {o st tr x st' t}, R st t → B o st tr x st' → ∃ t', B' o t tr x t' ∧ R st' t')
    {p : Prog (S.sum T) α} {st tr a st' t} (h : Exec B p st tr a st') (hR : R st t) :
    ∃ t', Exec B' p t tr a t' ∧ R st' t' := by
  induction h generalizing t with
  | ret => exact ⟨t, .ret, hR⟩
  | env _ ih =>
    obtain ⟨t', hex, hR'⟩ := ih hR
    exact ⟨t', .env hex, hR'⟩
  | call hB _ ih =>
    obtain ⟨t₁, hB', hR₁⟩ := hcall hR hB
    obtain ⟨t', hex, hR'⟩ := ih hR₁
    exact ⟨t', .call hB' hex, hR'⟩

/-- **A component's refinement carries over to every program.** When each
call of `B` that obeys `f` is matched by one of `B'`, so is each run. -/
theorem Exec.refine {B' : Comp S T τ} {R : σ → τ → Prop}
    (hcall : ∀ {o st tr x st' t}, R st t → B o st tr x st' → Obeys f tr →
      ∃ t', B' o t (tr.filter fun e => (f e.op).isNone) x t' ∧ R st' t')
    {p : Prog (S.sum T) α} {st tr a st' t} (h : Exec B p st tr a st') (ho : Obeys (onEnv f) tr) (hR : R st t) :
    ∃ t', Exec B' (p.assuming (onEnv f)) t (tr.filter fun e => (onEnv f e.op).isNone) a t' ∧ R st' t' := by
  induction h generalizing t with
  | ret => exact ⟨t, .ret, hR⟩
  | @env o k x st tr a st' _ ih =>
    obtain ⟨t', hex, hR'⟩ := ih (fun e he => ho e (List.mem_cons_of_mem _ he)) hR
    refine ⟨t', ?_, hR'⟩
    cases hf : f o with
    | some y =>
      have hxy : x = y := ho _ List.mem_cons_self y hf
      subst hxy
      rw [assuming_env_some hf, List.filter_cons_of_neg (by simp [onEnv, hf])]
      exact hex
    | none =>
      rw [assuming_env_none hf, List.filter_cons_of_pos (by simp [onEnv, hf])]
      exact .env hex
  | @call o k st tr₁ x st₁ tr a st' hB _ ih =>
    obtain ⟨ho₁, ho₂⟩ := ho.of_append
    obtain ⟨t₁, hB', hR₁⟩ := hcall hR hB (obeys_map_inl.mp ho₁)
    obtain ⟨t', hex, hR'⟩ := ih (fun e he => ho₂ e (List.mem_cons_of_mem _ he)) hR₁
    refine ⟨t', ?_, hR'⟩
    rw [List.filter_append, filter_map_inl, List.filter_cons_of_pos (by rfl), assuming_op_call]
    exact .call hB' hex

end Prog

end Effects
