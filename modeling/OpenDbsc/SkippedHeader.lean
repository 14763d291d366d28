/-
`protocol/header.c`: reading the Secure-Session-Skipped header.

A pointer into the header is what follows it, its end the terminator. Each
turn of a loop moves the pointer on, so as many turns as there are characters
are enough (`skippedEntries_turns`); the loops stop short of them by themselves.
-/
import OpenDbsc.Instruction

namespace OpenDbsc

open Effects Prog

structure SkippedEntry where
  reason : CStr
  sessionId : CStr
  deriving DecidableEq

/-- `sizeof(OpenDBSC_SkippedEntry)` on LP64. -/
def sizeofSkippedEntry : Nat := 16

def Header.isSpace (c : Char) : Bool :=
  c = ' ' || c = '\t' || c = '\r' || c = '\n' || c = '\x0c' || c = '\x0b'

def isTokenChar (c : Char) : Bool :=
  ('A' ≤ c && c ≤ 'Z') || ('a' ≤ c && c ≤ 'z') || ('0' ≤ c && c ≤ '9') || "!#$%&'*+-.^_`|~:/".toList.contains c

def isValidSkipReason (reason : CStr) : Bool :=
  reason = "unreachable" || reason = "server_error" || reason = "quota_exceeded"

/-- After an opening quote: the text up to the closing one, its escapes left
as they are, and what follows that. -/
def quotedSpan : CStr → Option (CStr × CStr)
  | [] => none
  | '"' :: rest => some ([], rest)
  | '\\' :: c :: rest => (quotedSpan rest).map fun r => ('\\' :: c :: r.1, r.2)
  | c :: rest => (quotedSpan rest).map fun r => (c :: r.1, r.2)

/-- One parameter after its semicolon: the key, the text of the value, and what follows. -/
def skippedParameter (p : CStr) : Option (CStr × CStr × CStr) :=
  let p := p.dropWhile Header.isSpace
  let key := p.takeWhile isTokenChar
  match (p.dropWhile isTokenChar).dropWhile Header.isSpace with
  | '=' :: p =>
    match p.dropWhile Header.isSpace with
    | '"' :: p => (quotedSpan p).map fun r => (key, r.1, r.2)
    | _ => none
  | _ => none

/-- The parameters of an entry: what follows them, and the last session identifier. -/
def skippedParameters : Nat → CStr → Option CStr → Prog Sys (Option (CStr × Option CStr))
  | turns + 1, ';' :: p, sessionId =>
    match skippedParameter p with
    | none => pure none
    | some (key, value, p) =>
      if key = "session_identifier" then do
        if !(← malloc (value.length + 1)) then return none
        skippedParameters turns p (some value)
      else skippedParameters turns p sessionId
  | _, p, sessionId => pure (some (p, sessionId))

/-- The entries after `entries`, in an array of `capacity`. -/
def skippedEntries : Nat → CStr → List SkippedEntry → Nat → Prog Sys (Option (List SkippedEntry))
  | 0, _, entries, _ => pure (some entries)
  | turns + 1, p, entries, capacity =>
    match p.dropWhile fun c => Header.isSpace c || c = ',' with
    | [] => pure (some entries)
    | p => do
      let reason := p.takeWhile isTokenChar
      if reason = [] then return none
      let some (p, sessionId) ← skippedParameters p.length (p.dropWhile isTokenChar) none | return none
      match isValidSkipReason reason, sessionId with
      | true, some sessionId =>
        let some capacity ← growArray entries.length capacity sizeofSkippedEntry | return none
        if !(← malloc (reason.length + 1)) then return none
        skippedEntries turns p (entries ++ [⟨reason, sessionId⟩]) capacity
      | _, _ => skippedEntries turns p entries capacity

/-- `opendbsc_parse_session_skipped`: the entries, or `none` when it returns -1. -/
def parseSessionSkipped (value : CStr) : Prog Sys (Option (List SkippedEntry)) := skippedEntries value.length value [] 0

/-! ## The loops end by themselves -/

theorem dropWhile_length (p : Char → Bool) (s : CStr) : (s.dropWhile p).length ≤ s.length :=
  (List.dropWhile_sublist p).length_le

theorem quotedSpan_length {s text rest : CStr} (h : quotedSpan s = some (text, rest)) : rest.length < s.length := by
  induction s using quotedSpan.induct generalizing text rest with
  | case1 => cases h
  | case2 rest₁ =>
    cases h
    exact Nat.lt_succ_self _
  | case3 c rest₁ ih =>
    obtain ⟨⟨text₁, rest₂⟩, hspan, heq⟩ := Option.map_eq_some_iff.mp h
    cases heq
    have hlt := ih hspan
    simp only [List.length_cons]
    omega
  | case4 c rest₁ hquote hback ih =>
    rw [quotedSpan] at h
    · obtain ⟨⟨text₁, rest₂⟩, hspan, heq⟩ := Option.map_eq_some_iff.mp h
      cases heq
      have hlt := ih hspan
      simp only [List.length_cons]
      omega
    · exact hquote
    · exact hback

theorem skippedParameter_length {p key value rest : CStr} (h : skippedParameter p = some (key, value, rest)) :
    rest.length < p.length := by
  unfold skippedParameter at h
  have h₁ := dropWhile_length Header.isSpace p
  have h₂ := dropWhile_length isTokenChar (p.dropWhile Header.isSpace)
  have h₃ := dropWhile_length Header.isSpace ((p.dropWhile Header.isSpace).dropWhile isTokenChar)
  dsimp only at h
  split at h
  · rename_i p₁ hp₁
    split at h
    · rename_i p₂ hp₂
      obtain ⟨⟨value₁, rest₁⟩, hspan, heq⟩ := Option.map_eq_some_iff.mp h
      cases heq
      have hlt : rest₁.length < p₂.length := quotedSpan_length hspan
      show rest₁.length < p.length
      have h₄ := dropWhile_length Header.isSpace p₁
      rw [hp₁, List.length_cons] at h₃
      rw [hp₂, List.length_cons] at h₄
      omega
    · cases h
  · cases h

theorem skippedParameters_of_ne {p : CStr} (h : ∀ q, p ≠ ';' :: q) (turns : Nat) (sessionId : Option CStr) :
    skippedParameters turns p sessionId = pure (some (p, sessionId)) := by
  cases turns with
  | zero => rfl
  | succ turns =>
    rw [skippedParameters]
    intro _ q _ hq
    exact h q hq

theorem ensures_skippedParameters (turns : Nat) (p : CStr) (sessionId : Option CStr) :
    Ensures (skippedParameters turns p sessionId) fun out => ∀ r, out = some r → r.1.length ≤ p.length := by
  induction turns generalizing p sessionId with
  | zero =>
    refine Ensures.pure fun r hr => ?_
    cases hr
    exact Nat.le_refl _
  | succ turns ih =>
    by_cases hp : ∃ q, p = ';' :: q
    · obtain ⟨q, rfl⟩ := hp
      rw [skippedParameters]
      cases hparam : skippedParameter q with
      | none => exact Ensures.pure nofun
      | some r =>
        obtain ⟨key, value, rest⟩ := r
        have hlt := skippedParameter_length hparam
        have hrest : ∀ sessionId, Ensures (skippedParameters turns rest sessionId)
            fun out => ∀ r, out = some r → r.1.length ≤ (';' :: q).length := by
          intro sessionId tr out ht r hr
          have hle := ih rest sessionId tr out ht r hr
          rw [List.length_cons]
          omega
        simp only
        split
        · refine Ensures.bind_any fun b => ?_
          split
          · exact Ensures.pure nofun
          · exact hrest _
        · exact hrest _
    · rw [skippedParameters_of_ne fun q hq => hp ⟨q, hq⟩]
      refine Ensures.pure fun r hr => ?_
      cases hr
      exact Nat.le_refl _

/-- As many turns as characters are enough. -/
theorem skippedEntries_turns {p : CStr} {n m : Nat} (hn : p.length ≤ n) (hm : p.length ≤ m)
    (entries : List SkippedEntry)
    (capacity : Nat) : skippedEntries n p entries capacity = skippedEntries m p entries capacity := by
  induction n generalizing p m entries capacity with
  | zero =>
    obtain rfl := List.eq_nil_of_length_eq_zero (Nat.le_zero.mp hn)
    cases m <;> rfl
  | succ n ih =>
    cases m with
    | zero =>
      obtain rfl := List.eq_nil_of_length_eq_zero (Nat.le_zero.mp hm)
      rfl
    | succ m =>
      have hle := dropWhile_length (fun c => Header.isSpace c || c = ',') p
      rw [skippedEntries, skippedEntries]
      generalize p.dropWhile _ = q at hle
      cases q with
      | nil => rfl
      | cons c q =>
        simp only
        split
        · rfl
        · rename_i hreason
          -- the reason takes a character at least
          have hlt : ((c :: q).dropWhile isTokenChar).length < (c :: q).length := by
            cases hc : isTokenChar c with
            | false => exact absurd (by rw [List.takeWhile_cons, hc]; rfl) hreason
            | true =>
              have hq := dropWhile_length isTokenChar q
              rw [List.dropWhile_cons_of_pos hc, List.length_cons]
              omega
          refine bind_congr_of_ensures (ensures_skippedParameters _ _ none) fun out hout => ?_
          cases out with
          | none => rfl
          | some r =>
            obtain ⟨rest, sessionId⟩ := r
            have hrest : rest.length ≤ ((c :: q).dropWhile isTokenChar).length := hout _ rfl
            have heq := fun entries capacity => ih (p := rest) (m := m) (by omega) (by omega) entries capacity
            simp only [heq]

end OpenDbsc
