/-
A component's calls carried out by programs of the layer below.

`p.over I` is `p` with each call `o` replaced by `I o`. Its runs are those of
`p` against the component that `I` makes of the layer below (`exec_over`),
whose calls are seen from above as one step each.
-/
import OpenDbsc.Effects.Total

namespace Effects

variable {S T U : Sig} {α β σ : Type}

def Prog.over (I : (o : T.Op) → Prog (S.sum U) (T.Ans o)) : Prog (S.sum T) α → Prog (S.sum U) α
  | ret a => ret a
  | op (.inl o) k => op (.inl o) fun x => (k x).over I
  | op (.inr o) k => I o >>= fun x => (k x).over I

namespace Prog

variable {I : (o : T.Op) → Prog (S.sum U) (T.Ans o)}

@[simp] theorem over_pure (a : α) : (pure a : Prog (S.sum T) α).over I = pure a := rfl

@[simp] theorem over_bind (p : Prog (S.sum T) α) (f : α → Prog (S.sum T) β) :
    (p >>= f).over I = p.over I >>= fun a => (f a).over I := by
  induction p with
  | ret a => rfl
  | op o k ih =>
    cases o with
    | inl o => simp only [op_bind, Prog.over, ih]
    | inr o => simp only [op_bind, Prog.over, ih, bind_assoc]

@[simp] theorem over_map (g : α → β) (p : Prog (S.sum T) α) : (g <$> p).over I = g <$> p.over I := by
  rw [← bind_pure_comp, over_bind]
  rfl

@[simp] theorem over_lift (p : Prog S α) : (p.lift (T := T)).over I = p.lift := by
  induction p with
  | ret a => rfl
  | op o k ih => simp only [lift, Prog.over, ih]

@[simp] theorem over_call (o : T.Op) : (call o : Prog (S.sum T) _).over I = I o := bind_pure (I o)

/-- What `p.over I` returns, `p` can return. -/
theorem trace_over {p : Prog (S.sum T) α} {tr a} (h : Trace (p.over I) tr a) : ∃ tr', Trace p tr' a := by
  induction p generalizing tr with
  | ret b =>
    obtain ⟨-, rfl⟩ := trace_pure.mp h
    exact ⟨[], .ret⟩
  | op o k ih =>
    cases o with
    | inl o =>
      obtain ⟨x, tr₁, -, h₁⟩ := trace_op.mp h
      obtain ⟨tr', ht⟩ := ih x h₁
      exact ⟨_, .op ht⟩
    | inr o =>
      obtain ⟨tr₁, x, tr₂, -, -, h₂⟩ := trace_bind.mp h
      obtain ⟨tr', ht⟩ := ih x h₂
      exact ⟨_, .op ht⟩

/-- The calls in such a run: each is a run of its program, somewhere in it. -/
theorem trace_over_calls {p : Prog (S.sum T) α} {tr a} (h : Trace (p.over I) tr a) :
    ∃ tr', Trace p tr' a ∧ ∀ (o : T.Op) (x : T.Ans o), (⟨.inr o, x⟩ : Event (S.sum T)) ∈ tr' →
      ∃ tr₁ tr₂ tr₃, tr = tr₁ ++ (tr₂ ++ tr₃) ∧ Trace (I o) tr₂ x := by
  induction p generalizing tr with
  | ret b =>
    obtain ⟨-, rfl⟩ := trace_pure.mp h
    exact ⟨[], .ret, fun _ _ hmem => absurd hmem List.not_mem_nil⟩
  | op o k ih =>
    cases o with
    | inl o =>
      obtain ⟨x, tr₁, rfl, h₁⟩ := trace_op.mp h
      obtain ⟨tr', ht, hcalls⟩ := ih x h₁
      refine ⟨⟨.inl o, x⟩ :: tr', .op ht, fun o' y hmem => ?_⟩
      have hmem := (List.mem_cons.mp hmem).resolve_left fun heq => by cases heq
      obtain ⟨tr₂, tr₃, tr₄, rfl, ht'⟩ := hcalls o' y hmem
      exact ⟨⟨.inl o, x⟩ :: tr₂, tr₃, tr₄, rfl, ht'⟩
    | inr o =>
      obtain ⟨tr₁, x, tr₂, rfl, h₁, h₂⟩ := trace_bind.mp h
      obtain ⟨tr', ht, hcalls⟩ := ih x h₂
      refine ⟨⟨.inr o, x⟩ :: tr', .op ht, fun o' y hmem => ?_⟩
      rcases List.mem_cons.mp hmem with heq | hmem
      · cases heq
        exact ⟨[], tr₁, tr₂, rfl, h₁⟩
      · obtain ⟨tr₃, tr₄, tr₅, rfl, ht'⟩ := hcalls o' y hmem
        exact ⟨tr₁ ++ tr₃, tr₄, tr₅, (List.append_assoc ..).symm, ht'⟩

theorem Ensures.over {p : Prog (S.sum T) α} {Q : α → Prop} (h : Ensures p Q) : Ensures (p.over I) Q := by
  intro tr a ht
  obtain ⟨tr', ht'⟩ := trace_over ht
  exact h tr' a ht'

/-- The environment's part of an event. -/
def envOf : Event (S.sum T) → Option (Event S)
  | ⟨.inl o, x⟩ => some ⟨o, x⟩
  | ⟨.inr _, _⟩ => none

/-- The environment's part of a run's events. -/
def envEvents (tr : List (Event (S.sum T))) : List (Event S) := tr.filterMap envOf

@[simp] theorem envEvents_inl {o : S.Op} {x : S.Ans o} (tr : List (Event (S.sum T))) :
    envEvents (⟨.inl o, x⟩ :: tr) = ⟨o, x⟩ :: envEvents tr := rfl

@[simp] theorem envEvents_append (tr₁ tr₂ : List (Event (S.sum T))) :
    envEvents (tr₁ ++ tr₂) = envEvents tr₁ ++ envEvents tr₂ :=
  List.filterMap_append

@[simp] theorem envEvents_map_inl (tr : List (Event S)) : envEvents (tr.map (Event.inl (T := T))) = tr := by
  unfold envEvents
  rw [List.filterMap_map]
  exact List.filterMap_some

theorem within_envEvents {φ : Event S → Prop} {tr : List (Event (S.sum T))} :
    Within φ tr ↔ ∀ e ∈ envEvents tr, φ e := by
  constructor
  · intro h e he
    obtain ⟨⟨o | o, x⟩, hmem, heq⟩ := List.mem_filterMap.mp he
    · rw [← Option.some.inj heq]
      exact h o x hmem
    · cases heq
  · exact fun h o x hmem => h _ (List.mem_filterMap.mpr ⟨_, hmem, rfl⟩)

/-- The component that the programs `I` make of `B`. -/
def through (I : (o : T.Op) → Prog (S.sum U) (T.Ans o)) (B : Comp S U σ) : Comp S T σ :=
  fun o st tr x st' => ∃ tr', Exec B (I o) st tr' x st' ∧ tr = envEvents tr'

/-- A run over the layer below is a run against the component made of it. -/
theorem exec_over {B : Comp S U σ} {p : Prog (S.sum T) α} {st tr a st'} (h : Exec B (p.over I) st tr a st') :
    ∃ tr', Exec (through I B) p st tr' a st' ∧ envEvents tr' = envEvents tr := by
  induction p generalizing st tr with
  | ret b =>
    obtain ⟨rfl, rfl, rfl⟩ := exec_pure.mp h
    exact ⟨[], .ret, rfl⟩
  | op o k ih =>
    cases o with
    | inl o =>
      obtain ⟨x, tr₁, rfl, h₁⟩ := exec_env.mp h
      obtain ⟨tr₂, hex, henv⟩ := ih x h₁
      exact ⟨⟨.inl o, x⟩ :: tr₂, .env hex, by rw [envEvents_inl, envEvents_inl, henv]⟩
    | inr o =>
      obtain ⟨tr₁, x, st₁, tr₂, rfl, h₁, h₂⟩ := exec_bind.mp h
      obtain ⟨tr₃, hex, henv⟩ := ih x h₂
      refine ⟨_, .call ⟨tr₁, h₁, rfl⟩ hex, ?_⟩
      rw [envEvents_append, envEvents_map_inl, envEvents_append, ← henv]
      rfl

end Prog

end Effects
