/-
`opendbsc_base64url_encode`, and what `opendbsc_base64url_decode` takes back.

The encoder fills the places of missing bytes with NULs, which it trims; what
is left is the RFC's text (`assuming_base64urlEncode`), and the decoder undoes
it (`base64url_roundtrip`). The decoder itself looks at `=` group by group,
not only in the last one, so it takes more than padded texts
(`base64url_grammar_iff`).
-/
import Mathlib.Data.List.DropRight
import OpenDbsc.Client
import OpenDbsc.Codec.Bits
import OpenDbsc.JwtFacts

namespace OpenDbsc

open Effects Prog

/-! ## The encoder -/

def b64urlTable : CStr := "ABCDEFGHIJKLMNOPQRSTUVWXYZabcdefghijklmnopqrstuvwxyz0123456789-_"

/-- `b64url_table[n]`. -/
def b64urlTableAt (n : Nat) : Char := b64urlTable.getD n '\x00'

/-- One turn of the encoding loop; a byte past the input's end leaves a NUL in its place. -/
def base64urlEncodeTurn (b0 : UInt8) (b1 b2 : Option UInt8) : CStr :=
  let b := b0.toNat <<< 16
  let b := match b1 with
    | some b1 => b ||| b1.toNat <<< 8
    | none => b
  let b := match b2 with
    | some b2 => b ||| b2.toNat
    | none => b
  [b64urlTableAt (b >>> 18 &&& 0x3f), b64urlTableAt (b >>> 12 &&& 0x3f),
    if b1.isSome then b64urlTableAt (b >>> 6 &&& 0x3f) else '\x00',
    if b2.isSome then b64urlTableAt (b &&& 0x3f) else '\x00']

def base64urlEncodeTurns : List UInt8 → CStr
  | b0 :: b1 :: b2 :: rest => base64urlEncodeTurn b0 (some b1) (some b2) ++ base64urlEncodeTurns rest
  | [b0, b1] => base64urlEncodeTurn b0 (some b1) none
  | [b0] => base64urlEncodeTurn b0 none none
  | [] => []

/-- `opendbsc_base64url_encode`; `none` is its null pointer. -/
def Jwt.base64urlEncode (bytes : List UInt8) : Prog Sys (Option CStr) :=
  if bytes.length = 0 then pure none
  else do
    let outLen := (bytes.length + 2) / 3 * 4
    if !(← malloc (outLen + 1)) then return none
    return some ((base64urlEncodeTurns bytes).rdropWhile (· = '\x00'))

theorem b64urlTableAt_eq {n : Nat} (h : n < 64) : b64urlTableAt n = b64urlChar n := by
  have hall : ∀ n : Fin 64, b64urlTableAt n = b64urlChar n := by decide +kernel
  exact hall ⟨n, h⟩

theorem b64urlChar_mem {n : Nat} (h : n < 64) : b64urlChar n ∈ b64urlTable := by
  have hall : ∀ n : Fin 64, b64urlChar n ∈ b64urlTable := by decide +kernel
  exact hall ⟨n, h⟩

theorem ne_nul_of_mem {c : Char} (h : c ∈ b64urlTable) : c ≠ '\x00' := by
  have hall : b64urlTable.all (· != '\x00') = true := by decide +kernel
  simpa using List.all_eq_true.mp hall c h

/-- A number shifted and another one in the places left free. -/
theorem shiftLeft_or {x y i : Nat} (h : y < 2 ^ i) : x <<< i ||| y = x * 2 ^ i + y := by
  rw [← Nat.shiftLeft_add_eq_or_of_lt h, Nat.shiftLeft_eq]

/-- Six bits of a number, as the table is looked up with them. -/
theorem b64urlTableAt_shift (b i : Nat) : b64urlTableAt (b >>> i &&& 0x3f) = b64urlChar (b / 2 ^ i % 64) := by
  rw [Nat.and_two_pow_sub_one_eq_mod _ 6, Nat.shiftRight_eq_div_pow]
  exact b64urlTableAt_eq (Nat.mod_lt _ (by decide))

theorem base64urlEncodeTurn_three (b0 b1 b2 : UInt8) :
    base64urlEncodeTurn b0 (some b1) (some b2) =
      [b64urlChar (b0.toNat / 4), b64urlChar (b0.toNat % 4 * 16 + b1.toNat / 16),
        b64urlChar (b1.toNat % 16 * 4 + b2.toNat / 64), b64urlChar (b2.toNat % 64)] := by
  have h₀ := b0.toNat_lt
  have h₁ := b1.toNat_lt
  have h₂ := b2.toNat_lt
  have hb : b0.toNat <<< 16 ||| b1.toNat <<< 8 ||| b2.toNat = b0.toNat * 65536 + b1.toNat * 256 + b2.toNat := by
    rw [Nat.or_assoc, shiftLeft_or (i := 8) h₂, shiftLeft_or (i := 16) (by omega)]
    omega
  have hlast := b64urlTableAt_shift (b0.toNat * 65536 + b1.toNat * 256 + b2.toNat) 0
  rw [Nat.shiftRight_zero] at hlast
  simp only [base64urlEncodeTurn, hb, b64urlTableAt_shift, hlast, Option.isSome_some, if_true]
  have e₀ : (b0.toNat * 65536 + b1.toNat * 256 + b2.toNat) / 2 ^ 18 % 64 = b0.toNat / 4 := by omega
  have e₁ : (b0.toNat * 65536 + b1.toNat * 256 + b2.toNat) / 2 ^ 12 % 64 = b0.toNat % 4 * 16 + b1.toNat / 16 := by omega
  have e₂ : (b0.toNat * 65536 + b1.toNat * 256 + b2.toNat) / 2 ^ 6 % 64 = b1.toNat % 16 * 4 + b2.toNat / 64 := by omega
  have e₃ : (b0.toNat * 65536 + b1.toNat * 256 + b2.toNat) / 2 ^ 0 % 64 = b2.toNat % 64 := by omega
  rw [e₀, e₁, e₂, e₃]

theorem base64urlEncodeTurn_two (b0 b1 : UInt8) :
    base64urlEncodeTurn b0 (some b1) none =
      [b64urlChar (b0.toNat / 4), b64urlChar (b0.toNat % 4 * 16 + b1.toNat / 16), b64urlChar (b1.toNat % 16 * 4),
        '\x00'] := by
  have h₀ := b0.toNat_lt
  have h₁ := b1.toNat_lt
  have hb : b0.toNat <<< 16 ||| b1.toNat <<< 8 = b0.toNat * 65536 + b1.toNat * 256 := by
    rw [shiftLeft_or (i := 16) (by omega)]
    omega
  simp only [base64urlEncodeTurn, hb, b64urlTableAt_shift, Option.isSome_some, Option.isSome_none, if_true,
    Bool.false_eq_true, if_false]
  have e₀ : (b0.toNat * 65536 + b1.toNat * 256) / 2 ^ 18 % 64 = b0.toNat / 4 := by omega
  have e₁ : (b0.toNat * 65536 + b1.toNat * 256) / 2 ^ 12 % 64 = b0.toNat % 4 * 16 + b1.toNat / 16 := by omega
  have e₂ : (b0.toNat * 65536 + b1.toNat * 256) / 2 ^ 6 % 64 = b1.toNat % 16 * 4 := by omega
  rw [e₀, e₁, e₂]

theorem base64urlEncodeTurn_one (b0 : UInt8) :
    base64urlEncodeTurn b0 none none =
      [b64urlChar (b0.toNat / 4), b64urlChar (b0.toNat % 4 * 16), '\x00', '\x00'] := by
  have h₀ := b0.toNat_lt
  simp only [base64urlEncodeTurn, b64urlTableAt_shift, Option.isSome_none, Bool.false_eq_true, if_false]
  have e₀ : b0.toNat <<< 16 / 2 ^ 18 % 64 = b0.toNat / 4 := by omega
  have e₁ : b0.toNat <<< 16 / 2 ^ 12 % 64 = b0.toNat % 4 * 16 := by omega
  rw [e₀, e₁]

/-- What the encoder writes is the text and a NUL for each missing byte. -/
theorem base64urlEncodeTurns_eq (bytes : List UInt8) :
    base64urlEncodeTurns bytes = base64urlEncode bytes ++ List.replicate ((3 - bytes.length % 3) % 3) '\x00' := by
  induction bytes using base64urlEncodeTurns.induct with
  | case1 b0 b1 b2 rest ih =>
    have hpad : (b0 :: b1 :: b2 :: rest).length % 3 = rest.length % 3 := by simp only [List.length_cons]; omega
    rw [base64urlEncodeTurns, base64urlEncodeTurn_three, ih, base64urlEncode, hpad]
    rfl
  | case2 b0 b1 => exact base64urlEncodeTurn_two b0 b1
  | case3 b0 => exact base64urlEncodeTurn_one b0
  | case4 => rfl

theorem base64urlEncode_mem (bytes : List UInt8) : ∀ c ∈ base64urlEncode bytes, c ∈ b64urlTable := by
  induction bytes using base64urlEncode.induct with
  | case1 b0 b1 b2 rest ih =>
    have h₀ := b0.toNat_lt
    have h₁ := b1.toNat_lt
    have h₂ := b2.toNat_lt
    rw [base64urlEncode]
    simp only [List.mem_cons, forall_eq_or_imp]
    exact ⟨b64urlChar_mem (by omega), b64urlChar_mem (by omega), b64urlChar_mem (by omega),
      b64urlChar_mem (by omega), ih⟩
  | case2 b0 b1 =>
    have h₀ := b0.toNat_lt
    have h₁ := b1.toNat_lt
    simp only [base64urlEncode, List.mem_cons, List.not_mem_nil, or_false, forall_eq_or_imp, forall_eq]
    exact ⟨b64urlChar_mem (by omega), b64urlChar_mem (by omega), b64urlChar_mem (by omega)⟩
  | case3 b0 =>
    have h₀ := b0.toNat_lt
    simp only [base64urlEncode, List.mem_cons, List.not_mem_nil, or_false, forall_eq_or_imp, forall_eq]
    exact ⟨b64urlChar_mem (by omega), b64urlChar_mem (by omega)⟩
  | case4 => exact fun c hc => absurd hc List.not_mem_nil

/-- `ceil (4 * n / 3)` characters for `n` bytes. -/
theorem base64urlEncode_length (bytes : List UInt8) : (base64urlEncode bytes).length = (4 * bytes.length + 2) / 3 := by
  induction bytes using base64urlEncode.induct with
  | case1 b0 b1 b2 rest ih =>
    simp only [base64urlEncode, List.length_cons, ih]
    omega
  | case2 b0 b1 => simp [base64urlEncode]
  | case3 b0 => simp [base64urlEncode]
  | case4 => rfl

/-- Trimming the NULs leaves the text. -/
theorem rdropWhile_nul (text : CStr) (n : Nat) (h : ∀ c ∈ text, c ≠ '\x00') :
    (text ++ List.replicate n '\x00').rdropWhile (· = '\x00') = text := by
  induction n with
  | zero =>
    rw [List.replicate_zero, List.append_nil, List.rdropWhile_eq_self_iff]
    intro hne
    simpa using h _ (List.getLast_mem hne)
  | succ n ih =>
    rw [List.replicate_succ', ← List.append_assoc, List.rdropWhile_concat_pos _ _ _ (by simp), ih]

/-- The encoder's text is the RFC's. -/
theorem assuming_base64urlEncode {bytes : List UInt8} (h : bytes ≠ []) :
    (Jwt.base64urlEncode bytes).assuming allocOk = pure (some (base64urlEncode bytes)) := by
  have htrim := rdropWhile_nul (base64urlEncode bytes) ((3 - bytes.length % 3) % 3) fun c hc =>
    ne_nul_of_mem (base64urlEncode_mem bytes c hc)
  rw [Jwt.base64urlEncode, if_neg fun hlen => h (List.eq_nil_of_length_eq_zero hlen), base64urlEncodeTurns_eq, htrim]
  simp

/-! ## The decoding that the standard gives a text -/

/-- The value of a character of the base64url or the base64 alphabet. -/
def base64Value (c : Char) : Option Nat :=
  if c = '+' then some 62 else if c = '/' then some 63 else b64urlTable.idxOf? c

def IsBase64Digit (c : Char) : Prop := (base64Value c).isSome = true

instance : DecidablePred IsBase64Digit := fun c => inferInstanceAs (Decidable ((base64Value c).isSome = true))

/-- The bytes of the characters' values, six bits each. -/
def standardDecoding (digits : CStr) : List UInt8 :=
  Bits.bytes (digits.flatMap fun c => Bits.bitsOf 6 ((base64Value c).getD 0))

/-- `s` is written with `digits`: in groups of four, the last one complete,
padded, or left as it is. -/
structure IsBase64 (s digits : CStr) : Prop where
  nonempty : digits ≠ []
  digit : ∀ c ∈ digits, IsBase64Digit c
  length : digits.length % 4 ≠ 1
  padding : s = digits ∨ ∃ n, s = digits ++ List.replicate n '=' ∧ 0 < n ∧ n ≤ 2 ∧ s.length % 4 = 0

/-- The decoder's digits are those of the encoder's table and the two others. -/
theorem b64urlDigit_eq (c : Char) : b64urlDigit c = base64Value c := by
  by_cases hc : c.toNat < 128
  · have hall : ∀ n : Fin 128, b64urlDigit (Char.ofNat n) = base64Value (Char.ofNat n) := by decide +kernel
    have heq := hall ⟨c.toNat, hc⟩
    rwa [Char.ofNat_toNat] at heq
  · -- no other character is of either alphabet
    have hle : ∀ d : Char, d.toNat < 128 → ¬ c ≤ d :=
      fun d hd hle => hc (Nat.lt_of_le_of_lt (UInt32.le_iff_toNat_le.mp hle) hd)
    have hne : ∀ d : Char, d.toNat < 128 → c ≠ d := fun d hd heq => hc (heq ▸ hd)
    have htable : c ∉ b64urlTable := by
      have hall : b64urlTable.all (fun d => decide (d.toNat < 128)) = true := by decide +kernel
      exact fun hmem => hc (of_decide_eq_true (List.all_eq_true.mp hall c hmem))
    have hvalue : base64Value c = none := by
      rw [base64Value, if_neg (hne _ (by decide)), if_neg (hne _ (by decide)), List.idxOf?_eq_none_iff.mpr htable]
    rw [hvalue, b64urlDigit, if_neg fun h => hle 'Z' (by decide) h.2, if_neg fun h => hle 'z' (by decide) h.2,
      if_neg fun h => hle '9' (by decide) h.2, if_neg fun h => h.elim (hne _ (by decide)) (hne _ (by decide)),
      if_neg fun h => h.elim (hne _ (by decide)) (hne _ (by decide))]

theorem base64Value_lt {c : Char} {n : Nat} (h : base64Value c = some n) : n < 64 := by
  unfold base64Value at h
  split at h
  · cases h; decide
  split at h
  · cases h; decide
  · obtain ⟨hlt, -⟩ := List.idxOf?_eq_some_iff.mp h
    exact hlt

theorem IsBase64Digit.ne_pad {c : Char} (h : IsBase64Digit c) : c ≠ '=' := by
  rintro rfl
  exact absurd h (by decide +kernel)

/-! ## What the decoding loop takes -/

/-- A list four at a time, as the loop goes through it. -/
@[elab_as_elim] theorem groupsOfFour {P : CStr → Prop} (zero : P []) (one : ∀ c0, P [c0]) (two : ∀ c0 c1, P [c0, c1])
    (three : ∀ c0 c1 c2, P [c0, c1, c2]) (four : ∀ c0 c1 c2 c3 rest, P rest → P (c0 :: c1 :: c2 :: c3 :: rest)) :
    ∀ s, P s
  | [] => zero
  | [c0] => one c0
  | [c0, c1] => two c0 c1
  | [c0, c1, c2] => three c0 c1 c2
  | c0 :: c1 :: c2 :: c3 :: rest => four c0 c1 c2 c3 rest (groupsOfFour zero one two three four rest)

/-- Translating the alphabet changes nothing that the loop looks at. -/
theorem base64urlGroups_toStandardAlphabet (s : CStr) :
    base64urlGroups (s.map toStandardAlphabet) = base64urlGroups s := by
  have hdigit : ∀ c, b64urlDigit (toStandardAlphabet c) = b64urlDigit c := by
    intro c
    unfold toStandardAlphabet
    split
    · rename_i h; subst h; rfl
    split
    · rename_i h; subst h; rfl
    · rfl
  have hpad : ∀ c, toStandardAlphabet c = '=' ↔ c = '=' := by
    intro c
    unfold toStandardAlphabet
    split
    · rename_i h; subst h; decide
    split
    · rename_i h; subst h; decide
    · exact Iff.rfl
  induction s using groupsOfFour with
  | four c0 c1 c2 c3 rest ih =>
    simp only [List.map_cons, base64urlGroups, base64urlGroup, b64urlPadDigit, hdigit, hpad, ne_eq, ih]
  | _ => rfl

/-- The text that the loop goes through. -/
def completed (s : CStr) : CStr := s ++ List.replicate ((4 - s.length % 4) % 4) '='

theorem base64urlBytes_eq {s : CStr} (h : s ≠ []) : base64urlBytes s = base64urlGroups (completed s) := by
  have hpadded : base64urlPadded s = (completed s).map toStandardAlphabet := by
    rw [base64urlPadded, completed, List.map_append, List.map_replicate]
    rfl
  rw [base64urlBytes, if_neg fun hlen => h (List.eq_nil_of_length_eq_zero hlen), hpadded,
    base64urlGroups_toStandardAlphabet]

/-- What the loop takes at an offset: a digit, or padding in the last two places of a group. -/
def Takes (i : Nat) (c : Char) : Prop := IsBase64Digit c ∨ c = '=' ∧ 2 ≤ i % 4

theorem b64urlPadDigit_isSome (c : Char) : (b64urlPadDigit c).isSome = true ↔ IsBase64Digit c ∨ c = '=' := by
  unfold b64urlPadDigit
  split
  · rename_i h
    exact iff_of_true rfl (.inr h)
  · rename_i h
    rw [b64urlDigit_eq]
    exact ⟨.inl, fun hc => hc.resolve_right h⟩

theorem base64urlGroup_isSome (c0 c1 c2 c3 : Char) :
    (base64urlGroup c0 c1 c2 c3).isSome = true ↔
      IsBase64Digit c0 ∧ IsBase64Digit c1 ∧ (IsBase64Digit c2 ∨ c2 = '=') ∧ (IsBase64Digit c3 ∨ c3 = '=') := by
  rw [← b64urlPadDigit_isSome, ← b64urlPadDigit_isSome, IsBase64Digit, IsBase64Digit, ← b64urlDigit_eq,
    ← b64urlDigit_eq]
  unfold base64urlGroup
  cases b64urlDigit c0 <;> cases b64urlDigit c1 <;> cases b64urlPadDigit c2 <;> cases b64urlPadDigit c3 <;> simp

theorem base64urlGroups_isSome {s : CStr} (h : s.length % 4 = 0) :
    (base64urlGroups s).isSome = true ↔ ∀ i c, s[i]? = some c → Takes i c := by
  induction s using groupsOfFour with
  | zero => simp [base64urlGroups]
  | four c0 c1 c2 c3 rest ih =>
    have hgroups : (base64urlGroups (c0 :: c1 :: c2 :: c3 :: rest)).isSome = true ↔
        (base64urlGroup c0 c1 c2 c3).isSome = true ∧ (base64urlGroups rest).isSome = true := by
      rw [base64urlGroups]
      cases base64urlGroup c0 c1 c2 c3 <;> cases base64urlGroups rest <;> simp
    simp only [List.length_cons] at h
    rw [hgroups, base64urlGroup_isSome, ih (by omega)]
    constructor
    · intro hall i c hi
      obtain ⟨⟨h₀, h₁, h₂, h₃⟩, hrest⟩ := hall
      match i with
      | 0 => cases hi; exact .inl h₀
      | 1 => cases hi; exact .inl h₁
      | 2 => cases hi; exact h₂.imp_right fun hc => ⟨hc, by decide⟩
      | 3 => cases hi; exact h₃.imp_right fun hc => ⟨hc, by decide⟩
      | i + 4 => exact (hrest i c hi).imp_right fun hc => ⟨hc.1, by omega⟩
    · intro hall
      have hdigit : ∀ {i c}, Takes i c → i % 4 < 2 → IsBase64Digit c :=
        fun hc hi => hc.resolve_right fun hpad => by omega
      refine ⟨⟨hdigit (hall 0 c0 rfl) (by decide), hdigit (hall 1 c1 rfl) (by decide),
        (hall 2 c2 rfl).imp_right And.left, (hall 3 c3 rfl).imp_right And.left⟩, fun i c hi => ?_⟩
      exact (hall (i + 4) c hi).imp_right fun hc => ⟨hc.1, by omega⟩
  | _ => simp at h

/-- Every `=` of the text stands in one of the last two places of a group of
four, everything else is a digit, and no digit stands alone in its group. -/
structure PaddedAnywhere (s : CStr) : Prop where
  nonempty : s ≠ []
  length : s.length % 4 ≠ 1
  takes : ∀ i c, s[i]? = some c → Takes i c

theorem not_takes_pad {i : Nat} (h : i % 4 < 2) : ¬ Takes i '=' := by
  rintro (hdigit | ⟨-, hi⟩)
  · exact hdigit.ne_pad rfl
  · omega

/-- **The decoder takes padding in any group.** -/
theorem base64urlBytes_isSome (s : CStr) : (base64urlBytes s).isSome = true ↔ PaddedAnywhere s := by
  by_cases hs : s = []
  · subst hs
    exact iff_of_false Bool.false_ne_true fun h => h.nonempty rfl
  have hlen : (completed s).length % 4 = 0 := by
    simp only [completed, List.length_append, List.length_replicate]
    omega
  rw [base64urlBytes_eq hs, base64urlGroups_isSome hlen]
  constructor
  · intro hall
    refine ⟨hs, fun hone => ?_, fun i c hi => hall i c ?_⟩
    · refine not_takes_pad (i := s.length) (by omega) (hall _ _ ?_)
      rw [completed, List.getElem?_append_right (Nat.le_refl _), hone, Nat.sub_self]
      rfl
    · rw [completed, List.getElem?_append_left (List.getElem?_eq_some_iff.mp hi).1, hi]
  · intro hpadded i c hi
    by_cases hlt : i < s.length
    · rw [completed, List.getElem?_append_left hlt] at hi
      exact hpadded.takes i c hi
    · rw [completed, List.getElem?_append_right (Nat.le_of_not_lt hlt), List.getElem?_replicate] at hi
      split at hi
      · cases hi
        have hone := hpadded.length
        exact .inr ⟨rfl, by omega⟩
      · cases hi

/-! ## What it decodes them to -/

section

variable {c0 c1 c2 c3 : Char} {d0 d1 d2 d3 : Nat}

theorem b64urlPadDigit_value (h : base64Value c0 = some d0) : b64urlPadDigit c0 = some d0 ∧ c0 ≠ '=' := by
  have hne : c0 ≠ '=' := IsBase64Digit.ne_pad (Option.isSome_of_eq_some h)
  rw [b64urlPadDigit, if_neg hne, b64urlDigit_eq]
  exact ⟨h, hne⟩

theorem base64urlGroup_four (h₀ : base64Value c0 = some d0) (h₁ : base64Value c1 = some d1)
    (h₂ : base64Value c2 = some d2) (h₃ : base64Value c3 = some d3) :
    base64urlGroup c0 c1 c2 c3 = some [UInt8.ofNat (d0 <<< 2 ||| d1 >>> 4),
      UInt8.ofNat ((d1 &&& 0x0f) <<< 4 ||| d2 >>> 2), UInt8.ofNat ((d2 &&& 0x03) <<< 6 ||| d3)] := by
  obtain ⟨hpad₂, hne₂⟩ := b64urlPadDigit_value h₂
  obtain ⟨hpad₃, hne₃⟩ := b64urlPadDigit_value h₃
  simp only [base64urlGroup, b64urlDigit_eq, h₀, h₁, hpad₂, hpad₃, ne_eq, hne₂, hne₃, not_false_eq_true, if_true,
    List.cons_append, List.nil_append]

theorem base64urlGroup_three (h₀ : base64Value c0 = some d0) (h₁ : base64Value c1 = some d1)
    (h₂ : base64Value c2 = some d2) :
    base64urlGroup c0 c1 c2 '=' = some [UInt8.ofNat (d0 <<< 2 ||| d1 >>> 4),
      UInt8.ofNat ((d1 &&& 0x0f) <<< 4 ||| d2 >>> 2)] := by
  obtain ⟨hpad₂, hne₂⟩ := b64urlPadDigit_value h₂
  have hpad : b64urlPadDigit '=' = some 0 := rfl
  simp only [base64urlGroup, b64urlDigit_eq, h₀, h₁, hpad₂, hpad, ne_eq, hne₂, not_false_eq_true, if_true,
    not_true_eq_false, if_false, List.cons_append, List.nil_append, List.append_nil]

theorem base64urlGroup_two (h₀ : base64Value c0 = some d0) (h₁ : base64Value c1 = some d1) :
    base64urlGroup c0 c1 '=' '=' = some [UInt8.ofNat (d0 <<< 2 ||| d1 >>> 4)] := by
  have hpad : b64urlPadDigit '=' = some 0 := rfl
  simp only [base64urlGroup, b64urlDigit_eq, h₀, h₁, hpad, ne_eq, not_true_eq_false, if_false, List.append_nil]

/-- The first byte of a group takes two bits of the second digit. -/
theorem bytes_first (h : d1 < 64) (rest : List Bool) :
    Bits.bytes (Bits.bitsOf 6 d0 ++ (Bits.bitsOf 6 d1 ++ rest)) =
      UInt8.ofNat (d0 <<< 2 ||| d1 >>> 4) :: Bits.bytes (Bits.bitsOf 4 d1 ++ rest) := by
  rw [← List.append_assoc, Bits.bitsOf_regroup (v := 2) (w := 4) h, List.append_assoc, Bits.bytes_bitsOf]

/-- The second takes four bits of the third. -/
theorem bytes_second (h : d2 < 64) (rest : List Bool) :
    Bits.bytes (Bits.bitsOf 4 d1 ++ (Bits.bitsOf 6 d2 ++ rest)) =
      UInt8.ofNat ((d1 &&& 0x0f) <<< 4 ||| d2 >>> 2) :: Bits.bytes (Bits.bitsOf 2 d2 ++ rest) := by
  rw [← Bits.bitsOf_mask 4 d1, ← List.append_assoc, Bits.bitsOf_regroup (v := 4) (w := 2) h, List.append_assoc,
    Bits.bytes_bitsOf]
  rfl

/-- The third takes the fourth digit whole. -/
theorem bytes_third (h : d3 < 64) (rest : List Bool) :
    Bits.bytes (Bits.bitsOf 2 d2 ++ (Bits.bitsOf 6 d3 ++ rest)) =
      UInt8.ofNat ((d2 &&& 0x03) <<< 6 ||| d3) :: Bits.bytes rest := by
  rw [← Bits.bitsOf_mask 2 d2, ← List.append_assoc, ← Bits.bitsOf_join (v := 2) (w := 6) h, Bits.bytes_bitsOf]
  rfl

end

/-- Digits, completed by padding, are decoded as the standard has it. -/
theorem base64urlGroups_completed {digits : CStr} (hdigit : ∀ c ∈ digits, IsBase64Digit c)
    (hlen : digits.length % 4 ≠ 1) :
    base64urlGroups (completed digits) = some (standardDecoding digits) := by
  have hvalue : ∀ c ∈ digits, ∃ d, base64Value c = some d ∧ d < 64 := by
    intro c hc
    obtain ⟨d, hd⟩ := Option.isSome_iff_exists.mp (hdigit c hc)
    exact ⟨d, hd, base64Value_lt hd⟩
  clear hdigit
  induction digits using groupsOfFour with
  | zero => rfl
  | one c0 => exact absurd rfl hlen
  | two c0 c1 =>
    simp only [List.mem_cons, List.not_mem_nil, or_false, forall_eq_or_imp, forall_eq] at hvalue
    obtain ⟨⟨d0, h₀, -⟩, d1, h₁, hlt₁⟩ := hvalue
    have hgroups : base64urlGroups (completed [c0, c1]) = (base64urlGroup c0 c1 '=' '=').bind fun bytes =>
      some (bytes ++ []) := rfl
    have hrest : Bits.bytes (Bits.bitsOf 4 d1 ++ []) = [] := Bits.bytes_of_length_lt (by simp [Bits.bitsOf_length])
    rw [hgroups, base64urlGroup_two h₀ h₁]
    simp only [standardDecoding, List.flatMap_cons, List.flatMap_nil, h₀, h₁, Option.getD_some, bytes_first hlt₁, hrest]
    rfl
  | three c0 c1 c2 =>
    simp only [List.mem_cons, List.not_mem_nil, or_false, forall_eq_or_imp, forall_eq] at hvalue
    obtain ⟨⟨d0, h₀, -⟩, ⟨d1, h₁, hlt₁⟩, d2, h₂, hlt₂⟩ := hvalue
    have hgroups : base64urlGroups (completed [c0, c1, c2]) = (base64urlGroup c0 c1 c2 '=').bind fun bytes =>
      some (bytes ++ []) := rfl
    have hrest : Bits.bytes (Bits.bitsOf 2 d2 ++ []) = [] := Bits.bytes_of_length_lt (by simp [Bits.bitsOf_length])
    rw [hgroups, base64urlGroup_three h₀ h₁ h₂]
    simp only [standardDecoding, List.flatMap_cons, List.flatMap_nil, h₀, h₁, h₂, Option.getD_some, bytes_first hlt₁,
      bytes_second hlt₂, hrest]
    rfl
  | four c0 c1 c2 c3 rest ih =>
    simp only [List.mem_cons, forall_eq_or_imp] at hvalue
    obtain ⟨⟨d0, h₀, -⟩, ⟨d1, h₁, hlt₁⟩, ⟨d2, h₂, hlt₂⟩, ⟨d3, h₃, hlt₃⟩, hvalues⟩ := hvalue
    have hlen' : (c0 :: c1 :: c2 :: c3 :: rest).length % 4 = rest.length % 4 := by simp only [List.length_cons]; omega
    have hcompleted : completed (c0 :: c1 :: c2 :: c3 :: rest) = c0 :: c1 :: c2 :: c3 :: completed rest := by
      rw [completed, hlen']
      rfl
    rw [hlen'] at hlen
    rw [hcompleted, base64urlGroups, base64urlGroup_four h₀ h₁ h₂ h₃, ih hlen hvalues]
    simp only [standardDecoding, List.flatMap_cons, h₀, h₁, h₂, h₃, Option.getD_some, bytes_first hlt₁,
      bytes_second hlt₂, bytes_third hlt₃]
    rfl

/-- A text is completed the same with its padding and without. -/
theorem IsBase64.completed_eq {s digits : CStr} (h : IsBase64 s digits) : completed s = completed digits := by
  rcases h.padding with rfl | ⟨n, rfl, hpos, hle, hmod⟩
  · rfl
  · rw [List.length_append, List.length_replicate] at hmod
    have hpad : (4 - digits.length % 4) % 4 = n := by omega
    rw [completed, completed, hpad, List.length_append, List.length_replicate, hmod]
    exact List.append_nil _

theorem IsBase64.decodes {s digits : CStr} (h : IsBase64 s digits) :
    base64urlBytes s = some (standardDecoding digits) := by
  have hs : s ≠ [] := by
    rcases h.padding with rfl | ⟨n, rfl, -⟩
    · exact h.nonempty
    · exact List.append_ne_nil_of_left_ne_nil h.nonempty _
  rw [base64urlBytes_eq hs, h.completed_eq, base64urlGroups_completed h.digit h.length]

/-- The decoder succeeds on the texts of the grammar, and gives each its standard decoding. -/
def DecodesAsStandard (s : CStr) : Prop :=
  ∀ out, (base64urlDecode s).assuming allocOk = pure (some out) ↔ ∃ digits, IsBase64 s digits ∧
    out = standardDecoding digits

/-- **When the decoder takes the grammar and no more.** It fails to on the texts
that have their padding in the right places of some groups of four, and are
neither complete nor without padding. -/
theorem base64url_grammar_iff (s : CStr) : DecodesAsStandard s ↔ (PaddedAnywhere s → ∃ digits, IsBase64 s digits) := by
  have hout : ∀ out, (base64urlDecode s).assuming allocOk = pure (some out) ↔ base64urlBytes s = some out := by
    intro out
    rw [assuming_base64urlDecode]
    exact ⟨fun h => by injection h, congrArg pure⟩
  unfold DecodesAsStandard
  simp only [hout]
  constructor
  · intro hdecodes hpadded
    obtain ⟨out, hbytes⟩ := Option.isSome_iff_exists.mp ((base64urlBytes_isSome s).mpr hpadded)
    obtain ⟨digits, hdigits, -⟩ := (hdecodes out).mp hbytes
    exact ⟨digits, hdigits⟩
  · intro hgrammar out
    constructor
    · intro hbytes
      obtain ⟨digits, hdigits⟩ := hgrammar ((base64urlBytes_isSome s).mp (Option.isSome_of_eq_some hbytes))
      rw [hdigits.decodes] at hbytes
      exact ⟨digits, hdigits, (Option.some.inj hbytes).symm⟩
    · intro h
      obtain ⟨digits, hdigits, rfl⟩ := h
      exact hdigits.decodes

/-- Two texts with their padding, one after the other, are taken for one. -/
theorem base64url_takes_inner_padding : ¬ DecodesAsStandard "AA==AA==" := by
  intro h
  have hbytes : base64urlBytes "AA==AA==" = some [0, 0] := by decide +kernel
  obtain ⟨digits, hdigits, -⟩ := (h [0, 0]).mp (by rw [assuming_base64urlDecode, hbytes])
  have hpad : '=' ∉ digits := fun hmem => (hdigits.digit _ hmem).ne_pad rfl
  rcases hdigits.padding with heq | ⟨n, heq, -, hle, -⟩
  · exact hpad (heq ▸ by decide)
  · -- the first `=` stands before the last two characters
    have hlen := congrArg List.length heq
    simp only [List.length_append, List.length_replicate] at hlen
    have hlen₈ : (("AA==AA==" : String).toList).length = 8 := by decide
    have hthird := congrArg (fun s => s[2]?) heq
    simp only [List.getElem?_append_left (show 2 < digits.length by omega)] at hthird
    exact hpad (List.mem_of_getElem? hthird.symm)

/-! ## Encoding and decoding -/

theorem base64Value_char {n : Nat} (h : n < 64) : base64Value (b64urlChar n) = some n := by
  have hall : ∀ n : Fin 64, base64Value (b64urlChar n) = some n.val := by decide +kernel
  exact hall ⟨n, h⟩

/-- A number's high bits and its low ones. -/
theorem div_or_mod (n i : Nat) : (n / 2 ^ i) <<< i ||| n % 2 ^ i = n := by
  rw [shiftLeft_or (Nat.mod_lt _ (Nat.two_pow_pos i)), Nat.div_add_mod']

section

variable (b0 b1 b2 : UInt8)

theorem ofNat_first : UInt8.ofNat ((b0.toNat / 4) <<< 2 ||| (b0.toNat % 4 * 16 + b1.toNat / 16) >>> 4) = b0 := by
  have h₁ := b1.toNat_lt
  have hlow : (b0.toNat % 4 * 16 + b1.toNat / 16) >>> 4 = b0.toNat % 4 := by omega
  rw [hlow]
  exact (congrArg UInt8.ofNat (div_or_mod b0.toNat 2)).trans UInt8.ofNat_toNat

theorem ofNat_second :
    UInt8.ofNat (((b0.toNat % 4 * 16 + b1.toNat / 16) &&& 0x0f) <<< 4 |||
      (b1.toNat % 16 * 4 + b2.toNat / 64) >>> 2) = b1 := by
  have h₁ := b1.toNat_lt
  have h₂ := b2.toNat_lt
  have hlow : (b1.toNat % 16 * 4 + b2.toNat / 64) >>> 2 = b1.toNat % 16 := by omega
  have hhigh : (b0.toNat % 4 * 16 + b1.toNat / 16) % 2 ^ 4 = b1.toNat / 16 := by omega
  rw [hlow, Nat.and_two_pow_sub_one_eq_mod _ 4, hhigh]
  exact (congrArg UInt8.ofNat (div_or_mod b1.toNat 4)).trans UInt8.ofNat_toNat

theorem ofNat_third : UInt8.ofNat (((b1.toNat % 16 * 4 + b2.toNat / 64) &&& 0x03) <<< 6 ||| b2.toNat % 64) = b2 := by
  have h₂ := b2.toNat_lt
  have hhigh : (b1.toNat % 16 * 4 + b2.toNat / 64) % 2 ^ 2 = b2.toNat / 64 := by omega
  rw [Nat.and_two_pow_sub_one_eq_mod _ 2, hhigh]
  exact (congrArg UInt8.ofNat (div_or_mod b2.toNat 6)).trans UInt8.ofNat_toNat

end

theorem standardDecoding_encode (bytes : List UInt8) : standardDecoding (base64urlEncode bytes) = bytes := by
  have hvalue : ∀ {n}, n < 64 → (base64Value (b64urlChar n)).getD 0 = n := fun h => by rw [base64Value_char h]; rfl
  induction bytes using base64urlEncode.induct with
  | case1 b0 b1 b2 rest ih =>
    have h₀ := b0.toNat_lt
    have h₁ := b1.toNat_lt
    have h₂ := b2.toNat_lt
    rw [standardDecoding] at ih
    simp only [standardDecoding, base64urlEncode, List.flatMap_cons]
    rw [hvalue (by omega), hvalue (by omega), hvalue (by omega), hvalue (by omega), bytes_first (by omega),
      bytes_second (by omega), bytes_third (by omega), ofNat_first, ofNat_second, ofNat_third, ih]
  | case2 b0 b1 =>
    have h₀ := b0.toNat_lt
    have h₁ := b1.toNat_lt
    -- as with a third byte of zeros, whose bits the last digit then ends with
    have hsecond := ofNat_second b0 b1 0
    have hrest : ∀ n, Bits.bytes (Bits.bitsOf 2 n ++ []) = [] :=
      fun n => Bits.bytes_of_length_lt (by simp [Bits.bitsOf_length])
    simp only [UInt8.toNat_zero, Nat.zero_div, Nat.add_zero] at hsecond
    simp only [standardDecoding, base64urlEncode, List.flatMap_cons, List.flatMap_nil]
    rw [hvalue (by omega), hvalue (by omega), hvalue (by omega), bytes_first (by omega), bytes_second (by omega),
      ofNat_first, hsecond, hrest]
  | case3 b0 =>
    have h₀ := b0.toNat_lt
    have hfirst := ofNat_first b0 0
    have hrest : ∀ n, Bits.bytes (Bits.bitsOf 4 n ++ []) = [] :=
      fun n => Bits.bytes_of_length_lt (by simp [Bits.bitsOf_length])
    simp only [UInt8.toNat_zero, Nat.zero_div, Nat.add_zero] at hfirst
    simp only [standardDecoding, base64urlEncode, List.flatMap_cons, List.flatMap_nil]
    rw [hvalue (by omega), hvalue (by omega), bytes_first (by omega), hfirst, hrest]
  | case4 => rfl

/-- What the encoder writes is in the grammar. -/
theorem isBase64_encode {bytes : List UInt8} (h : bytes ≠ []) :
    IsBase64 (base64urlEncode bytes) (base64urlEncode bytes) where
  nonempty := by
    intro hnil
    have hlen := base64urlEncode_length bytes
    have hpos := List.length_pos_iff.mpr h
    rw [hnil, List.length_nil] at hlen
    omega
  digit := by
    have hall : b64urlTable.all (fun c => decide (IsBase64Digit c)) = true := by decide +kernel
    exact fun c hc => of_decide_eq_true (List.all_eq_true.mp hall c (base64urlEncode_mem bytes c hc))
  length := by
    rw [base64urlEncode_length]
    omega
  padding := .inl rfl

/-- **Decoding undoes encoding.** -/
theorem base64url_roundtrip {bytes : List UInt8} (h : bytes ≠ []) :
    ∃ s, (Jwt.base64urlEncode bytes).assuming allocOk = pure (some s) ∧ (∀ c ∈ s, c ∈ b64urlTable) ∧
      s.length = (4 * bytes.length + 2) / 3 ∧ (base64urlDecode s).assuming allocOk = pure (some bytes) := by
  refine ⟨base64urlEncode bytes, assuming_base64urlEncode h, base64urlEncode_mem bytes,
    base64urlEncode_length bytes, ?_⟩
  rw [assuming_base64urlDecode, (isBase64_encode h).decodes, standardDecoding_encode]

/-- One byte more than a group. -/
theorem base64url_roundtrip_four : ∃ s, (Jwt.base64urlEncode [0xfb, 0xff, 0, 0x41]).assuming allocOk = pure (some s) ∧
    s.length = 6 ∧ (base64urlDecode s).assuming allocOk = pure (some [0xfb, 0xff, 0, 0x41]) := by
  have hne : ([0xfb, 0xff, 0, 0x41] : List UInt8) ≠ [] := by decide
  obtain ⟨s, henc, -, hlen, hdec⟩ := base64url_roundtrip hne
  exact ⟨s, henc, hlen, hdec⟩

end OpenDbsc
