/-
Environments in which things may go wrong.

`Unless faults φ` is the environment `φ` without faults and any environment
with them, so one theorem about a program says what it comes to in both. A
program that tries and may fail is described once, by the result it has in `φ`
and by those it may have besides.
-/
import OpenDbsc.Effects.Total

namespace Effects.Prog

variable {S T : Sig} {α σ : Type} {φ : Event S → Prop} {faults : Bool}

def Unless (faults : Bool) (φ : Event S → Prop) (e : Event S) : Prop := faults = true ∨ φ e

theorem unless_false {e : Event S} : Unless false φ e ↔ φ e := by simp [Unless]

theorem unless_true (e : Event S) : Unless true φ e := .inl rfl

/-- What always has an answer returns, and returns what it is known to. -/
theorem Answerable.returns_of_ensures {p : Prog S α} {Q : α → Prop} (hp : p.Answerable) (hQ : Ensures p Q) :
    Returns AnyAnswer p Q := by
  induction p with
  | ret a => exact hQ [] a .ret
  | op o k ih =>
    obtain ⟨x⟩ := hp.1
    exact ⟨⟨x, trivial⟩, fun x _ => ih x (hp.2 x) fun tr a ht => hQ (⟨o, x⟩ :: tr) a (.op ht)⟩

theorem Returns.congr {ψ : Event S → Prop} (h : ∀ e, φ e ↔ ψ e) {p : Prog S α} {Q : α → Prop} (hp : Returns φ p Q) :
    Returns ψ p Q := by
  induction p with
  | ret a => exact hp
  | op o k ih =>
    obtain ⟨⟨x, hx⟩, hk⟩ := hp
    exact ⟨⟨x, (h _).mp hx⟩, fun y hy => ih y (hk y ((h _).mpr hy))⟩

/-- A result of `φ`, and the results there may be besides. -/
theorem returns_unless {p : Prog S α} {Q : α → Prop} (hok : Returns φ p Q)
    (hfaults : faults = true → Returns AnyAnswer p Q) : Returns (Unless faults φ) p Q := by
  cases faults with
  | false => exact hok.congr fun _ => unless_false.symm
  | true => exact (hfaults rfl).congr fun e => iff_of_true trivial (unless_true e)

theorem total_unless_lift {B : Comp S T σ} {st : σ} {p : Prog S α} {Q : α → σ → Prop}
    (hok : Returns φ p fun a => Q a st) (hfaults : faults = true → Returns AnyAnswer p fun a => Q a st) :
    Total (Unless faults φ) B p.lift Q st :=
  total_lift.mpr (returns_unless hok hfaults)

end Effects.Prog
