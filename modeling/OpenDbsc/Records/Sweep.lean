/-
Removing from an array while scanning it.

`sweep test xs i` looks at the slots from `i` on. An element the test picks
is swap-removed, and its slot, where the last element now stands, is looked
at again; so the array changes under the scan. Each element is still tested
exactly once: what is left is the table filtered by the answers the test gave.
-/
import OpenDbsc.Effects.Prog
import OpenDbsc.Records.Table

namespace Records

open Effects Prog

variable {S : Sig} {β κ : Type}

def sweep (test : β → Prog S Bool) (xs : List β) (i : Nat) : Prog S (List β) :=
  if h : i < xs.length then do
    if ← test xs[i] then sweep test (swapRemove xs i) i
    else sweep test xs (i + 1)
  else pure xs
termination_by xs.length - i
decreasing_by
  · rw [length_swapRemove h]; omega
  · omega

theorem sweep_lt (test : β → Prog S Bool) {xs : List β} {i : Nat} (h : i < xs.length) :
    sweep test xs i = test xs[i] >>= fun b =>
      if b then sweep test (swapRemove xs i) i else sweep test xs (i + 1) := by
  rw [sweep, dif_pos h]

theorem sweep_ge (test : β → Prog S Bool) {xs : List β} {i : Nat} (h : xs.length ≤ i) :
    sweep test xs i = pure xs := by
  rw [sweep, dif_neg (Nat.not_lt.mpr h)]

theorem assuming_sweep (f : (o : S.Op) → Option (S.Ans o)) (test : β → Prog S Bool) (xs : List β) (i : Nat) :
    (sweep test xs i).assuming f = sweep (fun b => (test b).assuming f) xs i := by
  generalize hn : xs.length - i = n
  induction n generalizing xs i with
  | zero => rw [sweep_ge test (by omega), sweep_ge _ (by omega), assuming_pure]
  | succ n ih =>
    have hi : i < xs.length := by omega
    rw [sweep_lt test hi, sweep_lt _ hi, assuming_bind]
    refine congrArg _ (funext fun x => ?_)
    cases x with
    | true => exact ih (swapRemove xs i) i (by rw [length_swapRemove hi]; omega)
    | false => exact ih xs (i + 1) (by omega)

/-- Part of `tr` is a test of `b`, answered `x`. -/
def Tested (test : β → Prog S Bool) (tr : List (Event S)) (b : β) (x : Bool) : Prop :=
  ∃ tr', tr' <:+: tr ∧ Trace (test b) tr' x

theorem Tested.append_left {test : β → Prog S Bool} {tr : List (Event S)} {b : β} {x : Bool}
    (h : Tested test tr b x) (tr₀ : List (Event S)) : Tested test (tr₀ ++ tr) b x := by
  obtain ⟨tr', hin, ht⟩ := h
  exact ⟨tr', hin.trans (List.suffix_append tr₀ tr).isInfix, ht⟩

theorem Tested.of_trace {test : β → Prog S Bool} {tr₁ : List (Event S)} {b : β} {x : Bool}
    (h : Trace (test b) tr₁ x) (tr₂ : List (Event S)) : Tested test (tr₁ ++ tr₂) b x :=
  ⟨tr₁, (List.prefix_append tr₁ tr₂).isInfix, h⟩

/-- The answers `x` decide what is left of the slots from `i` on. -/
theorem Trace.sweep {test : β → Prog S Bool} {xs : List β} {i : Nat} {tr : List (Event S)} {ys : List β}
    (h : Trace (sweep test xs i) tr ys) (hnd : xs.Nodup) :
    ∃ gone : β → Bool, ys.Perm (xs.take i ++ (xs.drop i).filter fun b => !gone b) ∧
      ∀ b ∈ xs.drop i, Tested test tr b (gone b) := by
  classical
  generalize hn : xs.length - i = n
  induction n generalizing xs i tr with
  | zero =>
    rw [sweep_ge test (by omega), trace_pure] at h
    obtain ⟨rfl, hys⟩ := h
    have hdrop : xs.drop i = [] := List.drop_eq_nil_of_le (by omega)
    refine ⟨fun _ => false, ?_, ?_⟩
    · rw [hys, hdrop, List.filter_nil, List.append_nil, List.take_of_length_le (by omega)]
    · intro b hb; rw [hdrop] at hb; cases hb
  | succ n ih =>
    have hi : i < xs.length := by omega
    rw [sweep_lt test hi, trace_bind] at h
    obtain ⟨tr₁, x, tr₂, rfl, htest, hrest⟩ := h
    have hdrop : xs.drop i = xs[i] :: xs.drop (i + 1) := List.drop_eq_getElem_cons hi
    have hnew : xs[i] ∉ xs.drop (i + 1) := by
      have hnd' := hnd.sublist (List.drop_sublist i xs)
      rw [hdrop] at hnd'
      exact (List.nodup_cons.mp hnd').1
    -- The answer for `xs[i]` is the test's; the rest keep theirs.
    have hkeep : ∀ gone : β → Bool, ∀ b ∈ xs.drop (i + 1), Function.update gone xs[i] x b = gone b := by
      intro gone b hb
      refine Function.update_of_ne (fun he => ?_) x gone
      rw [he] at hb
      exact hnew hb
    have hanswers : ∀ gone : β → Bool, (∀ b ∈ xs.drop (i + 1), Tested test tr₂ b (gone b)) →
        ∀ b ∈ xs.drop i, Tested test (tr₁ ++ tr₂) b (Function.update gone xs[i] x b) := by
      intro gone hgone b hb
      rw [hdrop] at hb
      rcases List.mem_cons.mp hb with rfl | hb
      · rw [Function.update_self]
        exact Tested.of_trace htest tr₂
      · rw [hkeep gone b hb]
        exact (hgone b hb).append_left tr₁
    cases x with
    | true =>
      have hnd' : (swapRemove xs i).Nodup := (List.nodup_cons.mp ((swapRemove_perm hi).nodup_iff.mpr hnd)).2
      obtain ⟨gone, hys, hgone⟩ := ih hrest hnd' (by rw [length_swapRemove hi]; omega)
      have hrest := drop_swapRemove_perm hi
      refine ⟨Function.update gone xs[i] true, ?_, hanswers gone fun b hb => hgone b (hrest.mem_iff.mpr hb)⟩
      rw [hdrop, List.filter_cons_of_neg (by simp), List.filter_congr fun b hb => by rw [hkeep gone b hb]]
      rw [take_swapRemove hi] at hys
      exact hys.trans ((hrest.filter _).append_left _)
    | false =>
      obtain ⟨gone, hys, hgone⟩ := ih hrest hnd (by omega)
      refine ⟨Function.update gone xs[i] false, ?_, hanswers gone hgone⟩
      rw [hdrop, List.filter_cons_of_pos (by simp), List.filter_congr fun b hb => by rw [hkeep gone b hb]]
      rw [List.take_add_one, List.getElem?_eq_getElem hi, Option.toList_some, List.append_assoc] at hys
      exact hys

/-- **A sweep filters the table by the answers of the test.** -/
theorem Table.Lists.sweep {test : β → Prog S Bool} {key : β → κ} {xs : List β} {t : Table key}
    {tr : List (Event S)} {ys : List β} (hxs : Lists xs t) (h : Trace (sweep test xs 0) tr ys) :
    ∃ gone : β → Bool, Lists ys (t.filter fun b => gone b = false) ∧
      ∀ b ∈ t.rows, Tested test tr b (gone b) := by
  obtain ⟨gone, hys, hgone⟩ := Trace.sweep h hxs.nodup_keys.of_map
  refine ⟨gone, ?_, fun b hb => hgone b (hxs.mem_iff.mpr hb)⟩
  have hfilter := hxs.filter fun b => gone b = false
  refine hfilter.perm (hys.trans (List.Perm.of_eq ?_))
  rw [List.take_zero, List.nil_append, List.drop_zero]
  exact List.filter_congr fun b _ => by cases gone b <;> rfl

/-- What removing one element keeps, a sweep keeps. -/
theorem ensures_sweep {P : List β → Prop} (hremove : ∀ xs i, i < xs.length → P xs → P (swapRemove xs i))
    (test : β → Prog S Bool) {xs : List β} (hxs : P xs) (i : Nat) : Ensures (sweep test xs i) P := by
  generalize hn : xs.length - i = n
  induction n generalizing xs i with
  | zero =>
    rw [sweep_ge _ (by omega)]
    exact Ensures.pure hxs
  | succ n ih =>
    have hi : i < xs.length := by omega
    rw [sweep_lt _ hi]
    refine Ensures.bind_any fun b => ?_
    cases b with
    | true => exact ih (hremove xs i hi hxs) i (by rw [length_swapRemove hi]; omega)
    | false => exact ih hxs (i + 1) (by omega)

/-- A test that asks the environment nothing makes a sweep that asks nothing. -/
theorem sweep_silent {p : β → Bool} {xs : List β} {i : Nat} {tr : List (Event S)} {ys : List β}
    (h : Trace (sweep (fun b => Pure.pure (p b)) xs i) tr ys) : tr = [] := by
  generalize hn : xs.length - i = n
  induction n generalizing xs i with
  | zero =>
    rw [sweep_ge _ (by omega), trace_pure] at h
    exact h.1
  | succ n ih =>
    have hi : i < xs.length := by omega
    rw [sweep_lt _ hi, pure_bind] at h
    split at h
    · exact ih h (by rw [length_swapRemove hi]; omega)
    · exact ih h (by omega)

/-- A test that asks the environment nothing is its answer. -/
theorem Tested.pure {p : β → Bool} {tr : List (Event S)} {b : β} {x : Bool}
    (h : Tested (fun b => (Pure.pure (p b) : Prog S Bool)) tr b x) : x = p b := by
  obtain ⟨tr', _, ht⟩ := h
  exact (trace_pure.mp ht).2

end Records
