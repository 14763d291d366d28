/-
`protocol/header.c`: the headers that are one quoted string.

They are written as they are, between quotes, and read up to the first quote
that no backslash escapes; the text in between is not unescaped
(`quotedSpan_eq_some`). So what is read is what was written when its quotes
and backslashes are escapes already (`quoted_roundtrip_iff`). The lengths are
`int`s here, as `snprintf` returns them: `serializeTexts` is the two passes
that the serializers make over their texts.
-/
import OpenDbsc.SkippedHeader

namespace OpenDbsc

open Effects Prog

/-! ## Two passes -/

/-- `INT_MAX`. -/
def intMax : Nat := 2147483647

/-- `snprintf(NULL, 0, ..)` of a text: -1 if its length is no `int`. -/
def snprintfLength (text : CStr) : Int := if text.length ≤ intMax then text.length else -1

/-- `n +=` for each text; the sum has to be an `int`. -/
def measured : Int → List CStr → Prog Sys Int
  | n, [] => pure n
  | n, text :: texts =>
    let n' := n + snprintfLength text
    if n' > intMax ∨ n' < -1 - intMax then undefinedBehavior else measured n' texts

/-- The texts into a buffer of `(size_t)n + 1` bytes. Without a text nothing
is written to it, not even the terminator. -/
def serializeTexts (texts : List CStr) : Prog Sys (Option CStr) := do
  let n ← measured 0 texts
  let size := ((n + 1) % 2 ^ 64).toNat
  if !(← malloc size) then return none
  if texts = [] || texts.any (fun text => intMax < text.length) || size ≤ texts.flatten.length then undefinedBehavior
  else return some texts.flatten

/-- A text between quotes. -/
def quotedSerialize (text : Option CStr) : Prog Sys (Option CStr) :=
  match text with
  | none => pure none
  | some text => serializeTexts ["\"" ++ text ++ "\""]

def sessionResponseSerialize (jwt : Option CStr) : Prog Sys (Option CStr) := quotedSerialize jwt

def sessionIdSerialize (id : Option CStr) : Prog Sys (Option CStr) := quotedSerialize id

/-- The text between the quotes, with spaces around them and nothing else. -/
def unquote (value : Option CStr) : Prog Sys (Option CStr) :=
  match value with
  | none => pure none
  | some value =>
    match value.dropWhile Header.isSpace with
    | '"' :: start =>
      match quotedSpan start with
      | some (text, tail) =>
        if tail.dropWhile Header.isSpace ≠ [] then pure none
        else do if ← malloc (text.length + 1) then pure (some text) else pure none
      | none => pure none
    | _ => pure none

def parseSessionResponse (value : Option CStr) : Prog Sys (Option CStr) := unquote value

def parseSessionId (value : Option CStr) : Prog Sys (Option CStr) := unquote value

/-! ## Texts that fit -/

theorem measured_fits {n : Nat} {texts : List CStr} (h : n + texts.flatten.length ≤ intMax) :
    measured n texts = pure ((n + texts.flatten.length : Nat) : Int) := by
  induction texts generalizing n with
  | nil => rfl
  | cons text texts ih =>
    rw [List.flatten_cons, List.length_append] at h ⊢
    have hlen : snprintfLength text = text.length := if_pos (by omega)
    have hadd : (n : Int) + text.length = ((n + text.length : Nat) : Int) := by omega
    rw [measured, hlen, hadd, if_neg (by omega), ih (by omega), Nat.add_assoc]

/-- Measuring ends, or the sum is no `int`. -/
theorem measured_cases (n : Int) (texts : List CStr) :
    measured n texts = undefinedBehavior ∨ ∃ m, measured n texts = pure m := by
  induction texts generalizing n with
  | nil => exact .inr ⟨n, rfl⟩
  | cons text texts ih =>
    rw [measured]
    split
    · exact .inl rfl
    · exact ih _

theorem measured_overflows {n : Nat} {texts : List CStr} (htexts : ∀ text ∈ texts, text.length ≤ intMax)
    (h : intMax < n + texts.flatten.length) (hn : n ≤ intMax) : measured n texts = undefinedBehavior := by
  induction texts generalizing n with
  | nil =>
    simp at h
    omega
  | cons text texts ih =>
    rw [List.flatten_cons, List.length_append] at h
    have hlen : snprintfLength text = text.length := if_pos (htexts text List.mem_cons_self)
    have hadd : (n : Int) + text.length = ((n + text.length : Nat) : Int) := by omega
    rw [measured, hlen, hadd]
    by_cases hover : intMax < n + text.length
    · rw [if_pos (.inl (by omega))]
    · rw [if_neg (by omega), ih (fun t ht => htexts t (List.mem_cons_of_mem text ht)) (by omega) (by omega)]

/-- What was measured is what is written, as long as it is an `int`. -/
theorem assuming_serializeTexts {texts : List CStr} (hne : texts ≠ []) :
    (serializeTexts texts).assuming allocOk =
      if texts.flatten.length ≤ intMax then pure (some texts.flatten) else undefinedBehavior := by
  unfold serializeTexts
  by_cases hfits : texts.flatten.length ≤ intMax
  · have hmeasured : measured 0 texts = pure (texts.flatten.length : Int) := by
      have hle : 0 + texts.flatten.length ≤ intMax := by omega
      have h := measured_fits hle
      rwa [Nat.zero_add] at h
    have hsize : (((texts.flatten.length : Nat) + 1 : Int) % 2 ^ 64).toNat = texts.flatten.length + 1 := by
      have hmax : intMax = 2147483647 := rfl
      omega
    have hany : texts.any (fun text => intMax < text.length) = false := by
      rw [List.any_eq_false]
      intro text htext
      have hle := (List.sublist_flatten_of_mem htext).length_le
      simp only [decide_eq_true_eq]
      omega
    have hwrites : (texts = [] || texts.any (fun text => intMax < text.length) ||
        texts.flatten.length + 1 ≤ texts.flatten.length : Bool) = false := by
      rw [hany, decide_eq_false hne, decide_eq_false (Nat.not_succ_le_self _)]
      rfl
    rw [if_pos hfits, hmeasured, pure_bind]
    simp only [hsize, hwrites, assuming_bind, assuming_malloc, pure_bind, Bool.not_true, Bool.false_eq_true, if_false,
      assuming_pure]
  · rw [if_neg hfits]
    by_cases htexts : ∀ text ∈ texts, text.length ≤ intMax
    · have hmeasured : measured 0 texts = undefinedBehavior := measured_overflows htexts (by omega) (Nat.zero_le _)
      rw [hmeasured, undefined_bind, assuming_undefinedBehavior]
    · have hany : texts.any (fun text => intMax < text.length) = true := by
        simpa [not_forall] using htexts
      obtain hmeasured | ⟨m, hmeasured⟩ := measured_cases 0 texts
      · rw [hmeasured, undefined_bind, assuming_undefinedBehavior]
      · simp [hmeasured, hany]

/-! ## Text between quotes -/

/-- Text whose quotes and backslashes are escapes: each quote has its own
backslash before it, and each backslash a character of its own after it. -/
inductive EscapesWhole : CStr → Prop where
  | nil : EscapesWhole []
  | plain {c : Char} {s : CStr} : c ≠ '"' → c ≠ '\\' → EscapesWhole s → EscapesWhole (c :: s)
  | escape (c : Char) {s : CStr} : EscapesWhole s → EscapesWhole ('\\' :: c :: s)

theorem quotedSpan_plain {c : Char} (hquote : c ≠ '"') (hback : c ≠ '\\') (s : CStr) :
    quotedSpan (c :: s) = (quotedSpan s).map fun r => (c :: r.1, r.2) := by
  rw [quotedSpan]
  · exact hquote
  · exact fun _ _ h => absurd h hback

/-- **What is read after an opening quote.** -/
theorem quotedSpan_eq_some {s text rest : CStr} :
    quotedSpan s = some (text, rest) ↔ s = text ++ '"' :: rest ∧ EscapesWhole text := by
  constructor
  · intro h
    induction s using quotedSpan.induct generalizing text rest with
    | case1 => cases h
    | case2 rest₁ =>
      cases h
      exact ⟨rfl, .nil⟩
    | case3 c rest₁ ih =>
      obtain ⟨⟨text₁, rest₂⟩, hspan, heq⟩ := Option.map_eq_some_iff.mp h
      cases heq
      obtain ⟨rfl, htext⟩ := ih hspan
      exact ⟨rfl, .escape c htext⟩
    | case4 c rest₁ hquote hback ih =>
      rw [quotedSpan] at h
      · obtain ⟨⟨text₁, rest₂⟩, hspan, heq⟩ := Option.map_eq_some_iff.mp h
        cases heq
        obtain ⟨rfl, htext⟩ := ih hspan
        have hplain : c ≠ '\\' := fun he => by
          obtain ⟨d, ds, hd⟩ := List.exists_cons_of_ne_nil (l := text₁ ++ '"' :: rest₂) (by simp)
          exact hback d ds he hd
        exact ⟨rfl, .plain hquote hplain htext⟩
      · exact hquote
      · exact hback
  · rintro ⟨hs, htext⟩
    induction htext generalizing s with
    | nil =>
      rw [hs]
      rfl
    | plain hquote hback _ ih =>
      rw [hs, List.cons_append, quotedSpan_plain hquote hback, ih rfl]
      rfl
    | escape c _ ih =>
      rw [hs, List.cons_append, List.cons_append, quotedSpan, ih rfl]
      rfl

theorem assuming_unquote_quoted (s : CStr) :
    (unquote (some ("\"" ++ s ++ "\""))).assuming allocOk = pure (some s) ↔ EscapesWhole s := by
  have hstart : ("\"" ++ s ++ "\"" : CStr).dropWhile Header.isSpace = '"' :: (s ++ ['"']) := by
    simp [Header.isSpace]
  have hwhole : EscapesWhole s ↔ quotedSpan (s ++ ['"']) = some (s, []) := by
    simp [quotedSpan_eq_some]
  rw [hwhole, unquote]
  simp only [hstart]
  cases hspan : quotedSpan (s ++ ['"']) with
  | none => exact iff_of_false nofun nofun
  | some r =>
    obtain ⟨text, tail⟩ := r
    obtain ⟨hs, -⟩ := quotedSpan_eq_some.mp hspan
    simp only [ne_eq, ite_not]
    by_cases htail : tail.dropWhile Header.isSpace = []
    · simp only [if_pos htail, assuming_bind, assuming_malloc, pure_bind, if_true, assuming_pure]
      constructor
      · intro h
        cases h
        obtain rfl : tail = [] := by simpa using hs.symm
        rfl
      · intro h
        cases h
        rfl
    · rw [if_neg htail]
      refine iff_of_false nofun fun h => htail ?_
      cases h
      rfl

/-- **When a quoted header comes back.** For both headers: what is read is what
was written exactly when its quotes and backslashes are escapes, and the
header's length is an `int`. -/
theorem quoted_roundtrip_iff (s : CStr) :
    ((sessionIdSerialize (some s) >>= parseSessionId).assuming allocOk = pure (some s) ↔
      EscapesWhole s ∧ s.length + 2 ≤ intMax) ∧
    ((sessionResponseSerialize (some s) >>= parseSessionResponse).assuming allocOk = pure (some s) ↔
      EscapesWhole s ∧ s.length + 2 ≤ intMax) := by
  have hiff : (quotedSerialize (some s) >>= unquote).assuming allocOk = pure (some s) ↔
      EscapesWhole s ∧ s.length + 2 ≤ intMax := by
    rw [assuming_bind, quotedSerialize, assuming_serializeTexts (by simp)]
    have hlen : (["\"" ++ s ++ "\""] : List CStr).flatten.length = s.length + 2 := by simp
    rw [hlen]
    by_cases hfits : s.length + 2 ≤ intMax
    · rw [if_pos hfits, and_iff_left hfits, pure_bind, List.flatten_singleton, assuming_unquote_quoted]
    · rw [if_neg hfits, undefined_bind]
      exact iff_of_false (undefined_ne_pure _) fun h => hfits h.2
  exact ⟨hiff, hiff⟩

/-- A quote that is not escaped ends the string that is read. -/
theorem quoted_loses_text :
    ¬ (sessionIdSerialize (some "a\"b") >>= parseSessionId).assuming allocOk = pure (some "a\"b".toList) ∧
    ¬ (sessionResponseSerialize (some "a\"b") >>= parseSessionResponse).assuming allocOk = pure (some "a\"b".toList) := by
  have hreads : (quotedSerialize (some "a\"b") >>= unquote).assuming allocOk = pure none := by
    rw [assuming_bind, quotedSerialize, assuming_serializeTexts (by simp), if_pos (by decide)]
    rfl
  have hlost : ¬ (quotedSerialize (some "a\"b") >>= unquote).assuming allocOk = pure (some "a\"b".toList) := by
    rw [hreads]
    nofun
  exact ⟨hlost, hlost⟩

end OpenDbsc
