/-
Programs that can do without some of their operations.

`flags` marks, in order, the operations a program needs. `Needs f flags ok p`
says that the result of `p` is `ok` exactly when each of those got the answer
`f` gives, whatever the others got. A failure may end the program early, so
only a run that is `ok` is known to have come to all of them.
-/
import OpenDbsc.Effects.Reports

namespace Effects.Prog

variable {S : Sig} {α β : Type} {f : (o : S.Op) → Option (S.Ans o)} {flags l m : List Bool}
  {tr tr₁ tr₂ : List (Event S)}

/-- A needed operation did not get its answer. -/
def Denied (f : (o : S.Op) → Option (S.Ans o)) (flags : List Bool) (tr : List (Event S)) : Prop :=
  ∃ p ∈ flags.zip tr, p.1 = true ∧ ¬ Obeys f [p.2]

def Needs (f : (o : S.Op) → Option (S.Ans o)) (flags : List Bool) (ok : α → Prop) (p : Prog S α) : Prop :=
  ∀ tr a, Trace p tr a → (ok a ↔ ¬ Denied f flags tr) ∧ (ok a → tr.length = flags.length)

theorem denied_append (h : tr₁.length = l.length) :
    Denied f (l ++ m) (tr₁ ++ tr₂) ↔ Denied f l tr₁ ∨ Denied f m tr₂ := by
  unfold Denied
  rw [List.zip_append h.symm]
  simp only [List.mem_append, or_and_right, exists_or]

/-- What comes later makes no difference to a denial. -/
theorem Denied.append (h : Denied f l tr₁) : Denied f (l ++ m) (tr₁ ++ tr₂) := by
  obtain ⟨⟨flag, e⟩, hmem, hdenied⟩ := h
  obtain ⟨i, hi⟩ := List.mem_iff_getElem?.mp hmem
  obtain ⟨hflag, he⟩ := List.getElem?_zip_eq_some.mp hi
  refine ⟨(flag, e), List.mem_iff_getElem?.mpr ⟨i, List.getElem?_zip_eq_some.mpr ⟨?_, ?_⟩⟩, hdenied⟩
  · rw [List.getElem?_append_left (List.getElem?_eq_some_iff.mp hflag).1, hflag]
  · rw [List.getElem?_append_left (List.getElem?_eq_some_iff.mp he).1, he]

theorem not_denied_nil : ¬ Denied f [] tr := by
  rintro ⟨_, hmem, -⟩
  cases hmem

theorem needs_pure {ok : α → Prop} {a : α} (h : ok a) : Needs f [] ok (pure a : Prog S α) := by
  intro tr b hb
  obtain ⟨rfl, rfl⟩ := trace_pure.mp hb
  exact ⟨iff_of_true h not_denied_nil, fun _ => rfl⟩

theorem needs_perform {o : S.Op} {ok : S.Ans o → Prop} (h : ∀ x, ok x ↔ ∀ y, f o = some y → x = y) :
    Needs f [true] ok (perform o) := by
  intro tr x hx
  rw [trace_perform.mp hx]
  refine ⟨?_, fun _ => rfl⟩
  have hobeys : Obeys f [(⟨o, x⟩ : Event S)] ↔ ok x := by rw [obeys_singleton, h]
  simp [Denied, hobeys]

/-- An operation that is not needed. -/
theorem needs_optional (o : S.Op) : Needs f [false] (fun _ => True) (perform o) := by
  intro tr x hx
  rw [trace_perform.mp hx]
  refine ⟨iff_of_true trivial ?_, fun _ => rfl⟩
  simp [Denied]

/-- A step of which `P` is known, and what comes after. -/
theorem Needs.bind_with {P ok : α → Prop} {ok' : β → Prop} {p : Prog S α} {k : α → Prog S β} (hp : Needs f l ok p)
    (hP : Ensures p P) (hok : ∀ a, ok a → Needs f m ok' (k a))
    (hfail : ∀ a, P a → ¬ ok a → Ensures (k a) fun b => ¬ ok' b) : Needs f (l ++ m) ok' (p >>= k) := by
  intro tr b hb
  obtain ⟨tr₁, a, tr₂, rfl, h₁, h₂⟩ := trace_bind.mp hb
  obtain ⟨hiff₁, hlen₁⟩ := hp tr₁ a h₁
  by_cases ha : ok a
  · obtain ⟨hiff₂, hlen₂⟩ := hok a ha tr₂ b h₂
    rw [denied_append (hlen₁ ha), hiff₂]
    refine ⟨?_, fun hb => ?_⟩
    · rw [not_or]
      exact (and_iff_right (hiff₁.mp ha)).symm
    · rw [List.length_append, List.length_append, hlen₁ ha, hlen₂ (hiff₂.mpr hb)]
  · have hb := hfail a (hP tr₁ a h₁) ha tr₂ b h₂
    have hdenied : Denied f l tr₁ := not_not.mp fun h => ha (hiff₁.mpr h)
    exact ⟨iff_of_false hb (not_not.mpr hdenied.append), fun h => absurd h hb⟩

/-- A step that nothing depends on. -/
theorem Needs.bind_silent {ok : β → Prop} {p : Prog S α} {k : α → Prog S β} (hp : Needs f l (fun _ => True) p)
    (hk : ∀ a, Needs f m ok (k a)) : Needs f (l ++ m) ok (p >>= k) :=
  hp.bind_with (P := fun _ => True) (fun _ _ _ => trivial) (fun a _ => hk a) fun _ _ h => absurd trivial h

/-- `p` returns `x` or nothing. -/
def Tries (p : Prog S (Option α)) (x : α) : Prop := Ensures p fun out => out = some x ∨ out = none

theorem tries_pure (x : α) : Tries (pure (some x) : Prog S (Option α)) x := Ensures.pure (.inl rfl)

/-- A step that is tried, and nothing if it fails. -/
theorem Tries.bind {x : α} {y : β} {p : Prog S (Option α)} {k : Option α → Prog S (Option β)} (hp : Tries p x)
    (hk : Tries (k (some x)) y) (hnone : k none = pure none) : Tries (p >>= k) y := by
  refine Ensures.bind hp fun out hout => ?_
  rcases hout with rfl | rfl
  · exact hk
  · rw [hnone]
    exact Ensures.pure (.inr rfl)

/-- A single operation that is tried. -/
theorem tries_perform (o : S.Op) (ok : S.Ans o → Bool) (x : α) :
    Tries (do if ok (← perform o) then pure (some x) else pure none) x := by
  refine Ensures.bind_any fun a => ?_
  split
  · exact tries_pure x
  · exact Ensures.pure (.inr rfl)

/-- `p` returns `x`, or nothing for want of an operation it needs. -/
structure Gives (f : (o : S.Op) → Option (S.Ans o)) (flags : List Bool) (x : α) (p : Prog S (Option α)) : Prop where
  needs : Needs f flags (fun out => out = some x) p
  only : Tries p x

/-- A step that is tried, and what comes after it. -/
theorem Gives.bind {x : α} {ok : β → Prop} {p : Prog S (Option α)} {k : Option α → Prog S β} (hp : Gives f l x p)
    (hk : Needs f m ok (k (some x))) (hnone : Ensures (k none) fun b => ¬ ok b) :
    Needs f (l ++ m) ok (p >>= k) := by
  refine hp.needs.bind_with hp.only (fun a ha => ?_) fun a ha hne => ?_
  · rw [ha]
    exact hk
  · rw [ha.resolve_left hne]
    exact hnone

theorem gives_perform {o : S.Op} {g : S.Ans o → Bool} (h : ∀ x, g x = true ↔ ∀ y, f o = some y → x = y) (x : α) :
    Gives f [true] x (do if g (← perform o) then pure (some x) else pure none) := by
  refine ⟨?_, tries_perform o g x⟩
  refine (needs_perform h).bind_with (m := []) (P := fun _ => True) (fun _ _ _ => trivial) (fun a ha => ?_)
    fun a _ ha => ?_
  · rw [if_pos ha]
    exact needs_pure rfl
  · rw [if_neg ha]
    exact Ensures.pure (Option.some_ne_none x).symm

end Effects.Prog
