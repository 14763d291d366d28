/-
Tokens issued one at a time, each taking the place of the last.

Only the current token is accepted, and accepting it issues the next. So what
has been used, with the current one, is part of what was issued, in order:
tokens never issued twice are never used twice.
-/
import Mathlib.Data.List.Nodup

namespace Records

variable {α : Type}

/-- `used` were accepted, each while it was the current one. -/
def Rotates (issued used : List α) (current : Option α) : Prop := (used ++ current.toList).Sublist issued

namespace Rotates

variable {issued used : List α} {current : Option α} {a : α}

theorem nil : Rotates ([] : List α) [] none := List.Sublist.refl []

theorem lose (h : Rotates issued used current) : Rotates issued used none := by
  unfold Rotates at h ⊢
  rw [Option.toList_none, List.append_nil]
  exact (List.sublist_append_left used _).trans h

theorem issue (h : Rotates issued used current) (a : α) : Rotates (issued ++ [a]) used (some a) := by
  have hused := h.lose
  unfold Rotates at hused ⊢
  rw [Option.toList_none, List.append_nil] at hused
  exact hused.append_right [a]

theorem use (h : Rotates issued used (some a)) (b : α) : Rotates (issued ++ [b]) (used ++ [a]) (some b) :=
  List.Sublist.append_right h [b]

theorem used_nodup (h : Rotates issued used current) (hn : issued.Nodup) : used.Nodup :=
  (hn.sublist h).sublist (List.sublist_append_left used _)

end Rotates

end Records
