/-
Numbers as bits, the most significant first, and bits as bytes.

`bitsOf w n` is the last `w` bits of `n`. Where one number's bits end and the
next one's begin does not show (`bitsOf_add`, `bitsOf_join`), so a stream of
digits of one width is read as digits of another by cutting and joining.
-/
import Mathlib.Data.List.Basic
import Mathlib.Data.Nat.Bitwise
import Mathlib.Tactic.Ring

namespace Bits

def bitsOf : Nat → Nat → List Bool
  | 0, _ => []
  | w + 1, n => n.testBit w :: bitsOf w n

def number (bits : List Bool) : Nat := bits.foldl (fun n b => 2 * n + b.toNat) 0

/-- The whole bytes of a stream; the bits that are left at its end are dropped. -/
def bytes : List Bool → List UInt8
  | b₇ :: b₆ :: b₅ :: b₄ :: b₃ :: b₂ :: b₁ :: b₀ :: rest =>
    UInt8.ofNat (number [b₇, b₆, b₅, b₄, b₃, b₂, b₁, b₀]) :: bytes rest
  | _ => []

theorem bitsOf_length (w n : Nat) : (bitsOf w n).length = w := by
  induction w with
  | zero => rfl
  | succ w ih => rw [bitsOf, List.length_cons, ih]

theorem bitsOf_congr {w m n : Nat} (h : ∀ i < w, m.testBit i = n.testBit i) : bitsOf w m = bitsOf w n := by
  induction w with
  | zero => rfl
  | succ w ih => rw [bitsOf, bitsOf, h w (Nat.lt_succ_self w), ih fun i hi => h i (Nat.lt_succ_of_lt hi)]

theorem bitsOf_add (v w n : Nat) : bitsOf (v + w) n = bitsOf v (n >>> w) ++ bitsOf w n := by
  induction v with
  | zero => rw [Nat.zero_add]; rfl
  | succ v ih => rw [Nat.succ_add, bitsOf, bitsOf, ih, Nat.testBit_shiftRight, Nat.add_comm w v, List.cons_append]

/-- Two numbers side by side. -/
theorem bitsOf_join {v w m n : Nat} (hn : n < 2 ^ w) : bitsOf (v + w) (m <<< w ||| n) = bitsOf v m ++ bitsOf w n := by
  rw [bitsOf_add]
  congr 1
  · refine bitsOf_congr fun i _ => ?_
    have hhigh : n.testBit (w + i) = false :=
      Nat.testBit_lt_two_pow (Nat.lt_of_lt_of_le hn (Nat.pow_le_pow_right Nat.two_pos (Nat.le_add_right w i)))
    simp [hhigh]
  · refine bitsOf_congr fun i hi => ?_
    simp [Nat.not_le.mpr hi]

/-- The first `v` bits of the second number, moved over to the first. -/
theorem bitsOf_regroup {u v w m n : Nat} (hn : n < 2 ^ (v + w)) :
    bitsOf u m ++ bitsOf (v + w) n = bitsOf (u + v) (m <<< v ||| n >>> w) ++ bitsOf w n := by
  have hhigh : n >>> w < 2 ^ v := by
    rw [Nat.shiftRight_eq_div_pow, Nat.div_lt_iff_lt_mul (Nat.two_pow_pos w), ← Nat.pow_add]
    exact hn
  rw [bitsOf_join hhigh, bitsOf_add, List.append_assoc]

/-- The bits above the last `w` make no difference. -/
theorem bitsOf_mask (w n : Nat) : bitsOf w (n &&& (2 ^ w - 1)) = bitsOf w n := by
  refine bitsOf_congr fun i hi => ?_
  simp [hi]

/-- The bits read into `acc`. -/
theorem foldl_bitsOf (w n acc : Nat) :
    (bitsOf w n).foldl (fun n b => 2 * n + b.toNat) acc = acc * 2 ^ w + n % 2 ^ w := by
  induction w generalizing acc with
  | zero => simp [bitsOf, Nat.mod_one]
  | succ w ih =>
    have hbit : (n.testBit w).toNat = n / 2 ^ w % 2 := by
      rw [Nat.testBit_eq_decide_div_mod_eq]
      rcases Nat.mod_two_eq_zero_or_one (n / 2 ^ w) with h | h <;> simp [h]
    rw [bitsOf, List.foldl_cons, ih, hbit, Nat.mod_pow_succ, Nat.pow_succ]
    ring

theorem number_bitsOf (w n : Nat) : number (bitsOf w n) = n % 2 ^ w := by
  rw [number, foldl_bitsOf, Nat.zero_mul, Nat.zero_add]

/-- Eight bits are the next byte. -/
theorem bytes_bitsOf (n : Nat) (rest : List Bool) : bytes (bitsOf 8 n ++ rest) = UInt8.ofNat n :: bytes rest := by
  have hnumber := number_bitsOf 8 n
  simp only [bitsOf] at hnumber
  simp only [bitsOf, List.cons_append, List.nil_append, bytes, hnumber]
  congr 1
  apply UInt8.toNat_inj.mp
  simp

/-- Fewer than eight make none. -/
theorem bytes_of_length_lt {bits : List Bool} (h : bits.length < 8) : bytes bits = [] := by
  unfold bytes
  split
  · simp only [List.length_cons] at h
    omega
  · rfl

end Bits
