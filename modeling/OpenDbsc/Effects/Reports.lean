/-
Programs that report failure.

`Reports φ f ok p` says that the result of `p` tells, by `ok`, whether every
answer was the one `f` gives, when all are within `φ`: a program of which each
step is tried and the first failure ends it. It splits at a bind, where what
follows a failure only has to pass it on.
-/
import OpenDbsc.Effects.Link

namespace Effects.Prog

variable {S T : Sig} {α β : Type} {φ : Event S → Prop} {f : (o : S.Op) → Option (S.Ans o)}

def Reports (φ : Event S → Prop) (f : (o : S.Op) → Option (S.Ans o)) (ok : α → Prop) (p : Prog S α) : Prop :=
  ∀ tr a, Trace p tr a → (∀ e ∈ tr, φ e) → (ok a ↔ Obeys f tr)

theorem obeys_nil : Obeys f [] := fun _ he => nomatch he

theorem obeys_append {tr₁ tr₂ : List (Event S)} : Obeys f (tr₁ ++ tr₂) ↔ Obeys f tr₁ ∧ Obeys f tr₂ :=
  ⟨Obeys.of_append, fun h => h.1.append h.2⟩

theorem obeys_singleton {e : Event S} : Obeys f [e] ↔ ∀ x, f e.op = some x → e.ans = x := by
  simp [Obeys]

theorem obeys_cons {e : Event S} {tr : List (Event S)} :
    Obeys f (e :: tr) ↔ (∀ x, f e.op = some x → e.ans = x) ∧ Obeys f tr := by
  rw [← obeys_singleton, ← obeys_append, List.singleton_append]

/-- Whatever is answered. -/
theorem Reports.any {ok : α → Prop} {p : Prog S α} (h : Reports (fun _ => True) f ok p) {tr a} (ht : Trace p tr a) :
    ok a ↔ Obeys f tr :=
  h tr a ht fun _ _ => trivial

theorem reports_pure {ok : α → Prop} {a : α} (h : ok a) : Reports φ f ok (pure a : Prog S α) := by
  intro tr b hb _
  obtain ⟨rfl, rfl⟩ := trace_pure.mp hb
  exact iff_of_true h obeys_nil

theorem reports_perform {o : S.Op} {ok : S.Ans o → Prop}
    (h : ∀ x, φ ⟨o, x⟩ → (ok x ↔ ∀ y, f o = some y → x = y)) : Reports φ f ok (perform o) := by
  intro tr x hx hφ
  rw [trace_perform.mp hx] at hφ ⊢
  rw [obeys_singleton]
  exact h x (hφ _ List.mem_cons_self)

/-- A step of which `P` is known within `φ`, and what comes after. -/
theorem Reports.bind_with {P ok : α → Prop} {ok' : β → Prop} {p : Prog S α} {k : α → Prog S β} (hp : Reports φ f ok p)
    (hP : ∀ tr a, Trace p tr a → (∀ e ∈ tr, φ e) → P a) (hok : ∀ a, P a → ok a → Reports φ f ok' (k a))
    (hfail : ∀ a, P a → ¬ ok a → Ensures (k a) fun b => ¬ ok' b) : Reports φ f ok' (p >>= k) := by
  intro tr b hb hφ
  obtain ⟨tr₁, a, tr₂, rfl, h₁, h₂⟩ := trace_bind.mp hb
  obtain ⟨hφ₁, hφ₂⟩ := List.forall_mem_append.mp hφ
  have hPa := hP tr₁ a h₁ hφ₁
  rw [obeys_append, ← hp tr₁ a h₁ hφ₁]
  by_cases ha : ok a
  · rw [hok a hPa ha tr₂ b h₂ hφ₂]
    exact (and_iff_right ha).symm
  · exact iff_of_false (hfail a hPa ha tr₂ b h₂) fun h => ha h.1

theorem Reports.bind {ok : α → Prop} {ok' : β → Prop} {p : Prog S α} {k : α → Prog S β} (hp : Reports φ f ok p)
    (hok : ∀ a, ok a → Reports φ f ok' (k a)) (hfail : ∀ a, ¬ ok a → Ensures (k a) fun b => ¬ ok' b) :
    Reports φ f ok' (p >>= k) :=
  hp.bind_with (P := fun _ => True) (fun _ _ _ _ => trivial) (fun a _ => hok a) fun a _ => hfail a

/-- A step that cannot fail, and what is known of its result within `φ`. -/
theorem Reports.bind_known {P : α → Prop} {ok : β → Prop} {p : Prog S α} {k : α → Prog S β}
    (hp : ∀ tr a, Trace p tr a → (∀ e ∈ tr, φ e) → P a ∧ Obeys f tr) (hk : ∀ a, P a → Reports φ f ok (k a)) :
    Reports φ f ok (p >>= k) := by
  intro tr b hb hφ
  obtain ⟨tr₁, a, tr₂, rfl, h₁, h₂⟩ := trace_bind.mp hb
  obtain ⟨hφ₁, hφ₂⟩ := List.forall_mem_append.mp hφ
  obtain ⟨ha, ho⟩ := hp tr₁ a h₁ hφ₁
  rw [obeys_append, hk a ha tr₂ b h₂ hφ₂]
  exact (and_iff_right ho).symm

/-- A step that cannot fail. -/
theorem Reports.bind_silent {ok : β → Prop} {p : Prog S α} {k : α → Prog S β} (hp : Reports φ f (fun _ => True) p)
    (hk : ∀ a, Reports φ f ok (k a)) : Reports φ f ok (p >>= k) :=
  Reports.bind_known (fun tr a ht hφ => ⟨trivial, (hp tr a ht hφ).mp trivial⟩) fun a _ => hk a

/-- The same failures, told by another property of the result. -/
theorem Reports.congr {ok ok' : α → Prop} {Q : α → Prop} {p : Prog S α} (h : Reports φ f ok p) (hp : Ensures p Q)
    (hok : ∀ a, Q a → (ok' a ↔ ok a)) : Reports φ f ok' p := by
  intro tr a ht hφ
  rw [hok a (hp tr a ht), h tr a ht hφ]

theorem reports_call {φ : Event (S.sum T) → Prop} {f : (o : (S.sum T).Op) → Option ((S.sum T).Ans o)} {o : T.Op}
    {ok : T.Ans o → Prop} (h : ∀ x, φ ⟨.inr o, x⟩ → (ok x ↔ ∀ y, f (.inr o) = some y → x = y)) :
    Reports φ f ok (call o) :=
  reports_perform (S := S.sum T) (o := .inr o) h

/-- A program of the environment's operations. -/
theorem Reports.lift {φ : Event (S.sum T) → Prop} {f : (o : (S.sum T).Op) → Option ((S.sum T).Ans o)} {ok : α → Prop}
    {p : Prog S α} (h : Reports (fun e => φ e.inl) (fun o => f (.inl o)) ok p) : Reports φ f ok (p.lift (T := T)) := by
  intro tr a ht hφ
  obtain ⟨tr', rfl, ht'⟩ := trace_lift.mp ht
  have hobeys : Obeys f (tr'.map Event.inl) ↔ Obeys (fun o => f (.inl o)) tr' := List.forall_mem_map
  rw [hobeys]
  exact h tr' a ht' fun e he => hφ e.inl (List.mem_map_of_mem he)

end Effects.Prog
