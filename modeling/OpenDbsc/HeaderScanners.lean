/-
`protocol/header.c`: its two scanners again, with pointers into the string.

A pointer is an index. The terminator can be read, what is behind it cannot:
such a read has no answer, and neither does a loop that has used up its turns.
`s.At p q` says that the pointer `p` has `q` before the terminator. Under it
each loop moves its pointer as the model on what is left of the string does,
in fewer turns than the string has bytes.
-/
import OpenDbsc.Effects.Alike
import OpenDbsc.HeaderStrings

namespace OpenDbsc

open Effects Prog

namespace CString

/-- `*p`. -/
def read (s : CString) (p : Nat) : Prog Sys Char :=
  if h : p < s.bytes.length then pure (s.bytes.get ⟨p, h⟩)
  else if p = s.bytes.length then pure '\x00'
  else undefinedBehavior

/-- The `len` bytes from `start`. -/
def span (s : CString) (start len : Nat) : Prog Sys CStr :=
  if start + len ≤ s.bytes.length then pure ((s.bytes.drop start).take len) else undefinedBehavior

/-- `memdup_str`. -/
def memdupStr (s : CString) (start len : Nat) : Prog Sys (Option CStr) := do
  if !(← malloc (len + 1)) then return none
  let copy ← s.span start len
  return some copy

/-- `while (test(*p)) ++p;` -/
def skipWhile (s : CString) (test : Char → Bool) : Nat → Nat → Prog Sys Nat
  | 0, _ => undefinedBehavior
  | turns + 1, p => do
    if test (← s.read p) then s.skipWhile test turns (p + 1) else return p

/-- From behind an opening quote: where the closing one is, or the terminator. -/
def skipQuoted (s : CString) : Nat → Nat → Prog Sys Nat
  | 0, _ => undefinedBehavior
  | turns + 1, p => do
    let c ← s.read p
    if c = '\x00' || c = '"' then return p
    if c = '\\' then
      if (← s.read (p + 1)) ≠ '\x00' then s.skipQuoted turns (p + 2)
      else s.skipQuoted turns (p + 1)
    else s.skipQuoted turns (p + 1)

/-- `unquote`. -/
def unquote (turns : Nat) (value : Option CString) : Prog Sys (Option CStr) := do
  let some s := value | return none
  let value ← s.skipWhile Header.isSpace turns 0
  if (← s.read value) ≠ '"' then return none
  let start := value + 1
  let p ← s.skipQuoted turns start
  if (← s.read p) ≠ '"' then return none
  let tail ← s.skipWhile (fun c => c ≠ '\x00' && Header.isSpace c) turns (p + 1)
  if (← s.read tail) ≠ '\x00' then return none
  s.memdupStr start (p - start)

/-- One parameter after its semicolon: where its key starts and ends, and where
the text of its value does. -/
def skippedParameter (s : CString) (turns p : Nat) : Prog Sys (Option (Nat × Nat × Nat × Nat)) := do
  let keyStart ← s.skipWhile Header.isSpace turns p
  let keyEnd ← s.skipWhile isTokenChar turns keyStart
  let p ← s.skipWhile Header.isSpace turns keyEnd
  if (← s.read p) ≠ '=' then return none
  let p ← s.skipWhile Header.isSpace turns (p + 1)
  if (← s.read p) ≠ '"' then return none
  let valStart := p + 1
  let p ← s.skipQuoted turns valStart
  if (← s.read p) ≠ '"' then return none
  return some (keyStart, keyEnd, valStart, p)

/-- The parameters of an entry: where they end, and the last session identifier.
The key is compared within its length (`strncmp`). -/
def skippedParameters (s : CString) (turns : Nat) : Nat → Nat → Option CStr → Prog Sys (Option (Nat × Option CStr))
  | 0, _, _ => undefinedBehavior
  | n + 1, p, sessionId => do
    if (← s.read p) ≠ ';' then return some (p, sessionId)
    let some (keyStart, keyEnd, valStart, p) ← s.skippedParameter turns (p + 1) | return none
    if (← s.span keyStart (keyEnd - keyStart)) = "session_identifier" then
      let some sessionId ← s.memdupStr valStart (p - valStart) | return none
      s.skippedParameters turns n (p + 1) (some sessionId)
    else s.skippedParameters turns n (p + 1) sessionId

/-- The entries after `entries`, in an array of `capacity`. -/
def skippedEntries (s : CString) (turns : Nat) :
    Nat → Nat → List SkippedEntry → Nat → Prog Sys (Option (List SkippedEntry))
  | 0, _, _, _ => undefinedBehavior
  | n + 1, p, entries, capacity => do
    if (← s.read p) = '\x00' then return some entries
    let tokStart ← s.skipWhile (fun c => Header.isSpace c || c = ',') turns p
    if (← s.read tokStart) = '\x00' then return some entries
    let p ← s.skipWhile isTokenChar turns tokStart
    let tokLen := p - tokStart
    if tokLen = 0 then return none
    let some (p, sessionId) ← s.skippedParameters turns turns p none | return none
    let reason ← s.span tokStart tokLen
    match isValidSkipReason reason, sessionId with
    | true, some sessionId =>
      let some capacity ← growArray entries.length capacity sizeofSkippedEntry | return none
      let some reason ← s.memdupStr tokStart tokLen | return none
      s.skippedEntries turns n p (entries ++ [⟨reason, sessionId⟩]) capacity
    | _, _ => s.skippedEntries turns n p entries capacity

/-- `opendbsc_parse_session_skipped`. -/
def parseSessionSkipped (turns : Nat) (s : CString) : Prog Sys (Option (List SkippedEntry)) :=
  s.skippedEntries turns turns 0 [] 0

/-! ## Pointers -/

/-- The pointer `p` has `q` before the terminator. -/
def At (s : CString) (p : Nat) (q : CStr) : Prop := ∃ before, s.bytes = before ++ q ∧ before.length = p

variable {s : CString} {p turns : Nat} {q rest : CStr} {c : Char}

theorem at_start : s.At 0 s.bytes := ⟨[], rfl, rfl⟩

theorem At.add (text : CStr) (h : s.At p (text ++ rest)) : s.At (p + text.length) rest := by
  obtain ⟨before, hbytes, rfl⟩ := h
  exact ⟨before ++ text, by rw [hbytes, List.append_assoc], by rw [List.length_append]⟩

theorem At.next (h : s.At p (c :: q)) : s.At (p + 1) q := At.add [c] h

theorem At.ne_nul (h : s.At p q) (hc : c ∈ q) : c ≠ '\x00' := by
  obtain ⟨before, hbytes, -⟩ := h
  rintro rfl
  exact s.noNul (by rw [hbytes]; exact List.mem_append_right _ hc)

/-- More turns than the string has bytes are more than what is left of it has. -/
theorem At.lt (h : s.At p q) (hturns : s.bytes.length < turns) : q.length < turns := by
  obtain ⟨before, hbytes, -⟩ := h
  rw [hbytes, List.length_append] at hturns
  omega

/-- What a pointer points at is a byte before the terminator, or that. -/
theorem At.read (h : s.At p q) : s.read p = pure (q.headD '\x00') := by
  obtain ⟨before, hbytes, rfl⟩ := h
  unfold CString.read
  cases q with
  | nil => simp [hbytes]
  | cons c q => simp [hbytes]

theorem At.span {text : CStr} (h : s.At p (text ++ rest)) : s.span p text.length = pure text := by
  obtain ⟨before, hbytes, rfl⟩ := h
  simp [CString.span, hbytes]

/-! ## Loops -/

theorem At.skipWhile (h : s.At p q) (test : Char → Bool) (htest : test '\x00' = false) (hturns : q.length < turns) :
    ∃ p', s.skipWhile test turns p = pure p' ∧ p' = p + (q.takeWhile test).length ∧ s.At p' (q.dropWhile test) := by
  induction turns generalizing p q with
  | zero => omega
  | succ turns ih =>
    rw [CString.skipWhile, h.read, pure_bind]
    cases q with
    | nil => exact ⟨p, by simp [htest], by simp, by simpa using h⟩
    | cons c q =>
      cases hc : test c with
      | false => exact ⟨p, by simp [hc], by simp [hc], by simpa [hc] using h⟩
      | true =>
        obtain ⟨p', hskip, hp', hat⟩ := ih h.next (by simpa using hturns)
        refine ⟨p', by simpa [hc] using hskip, ?_, by simpa [hc] using hat⟩
        simp [hc, hp']
        omega

/-- `p'` is at the closing quote of what `q` starts with, or at the terminator. -/
def Quoted (s : CString) (q : CStr) (p p' : Nat) : Prop :=
  (∃ text rest, quotedSpan q = some (text, rest) ∧ p' = p + text.length ∧ s.At p' ('"' :: rest)) ∨
    (quotedSpan q = none ∧ s.At p' [])

/-- Bytes that do not end the text. -/
theorem Quoted.append (text : CStr) {p' : Nat} (h : s.Quoted q (p + text.length) p')
    (hspan : quotedSpan (text ++ q) = (quotedSpan q).map fun r => (text ++ r.1, r.2)) :
    s.Quoted (text ++ q) p p' := by
  rcases h with ⟨text', rest, hq, hp', hat⟩ | ⟨hq, hat⟩
  · refine .inl ⟨text ++ text', rest, by rw [hspan, hq, Option.map_some], ?_, hat⟩
    rw [hp', List.length_append, Nat.add_assoc]
  · exact .inr ⟨by rw [hspan, hq, Option.map_none], hat⟩

/-- An escape looks one byte ahead, at the terminator at most. -/
theorem At.skipQuoted (h : s.At p q) (hturns : q.length < turns) :
    ∃ p', s.skipQuoted turns p = pure p' ∧ s.Quoted q p p' := by
  induction turns generalizing p q with
  | zero => omega
  | succ turns ih =>
    rw [CString.skipQuoted, h.read, pure_bind]
    cases q with
    | nil => exact ⟨p, by simp, .inr ⟨rfl, h⟩⟩
    | cons c q =>
      have hnul := h.ne_nul List.mem_cons_self
      rw [List.length_cons] at hturns
      by_cases hquote : c = '"'
      · subst hquote
        exact ⟨p, by simp, .inl ⟨[], q, rfl, rfl, h⟩⟩
      by_cases hback : c = '\\'
      · subst hback
        cases q with
        | nil =>
          obtain ⟨p', hskip, hquoted⟩ := ih h.next (by omega)
          refine ⟨p', ?_, Quoted.append ['\\'] hquoted rfl⟩
          simp [h.next.read, hskip]
        | cons d q =>
          rw [List.length_cons] at hturns
          have hd := h.next.ne_nul List.mem_cons_self
          obtain ⟨p', hskip, hquoted⟩ := ih h.next.next (by omega)
          refine ⟨p', ?_, Quoted.append ['\\', d] hquoted rfl⟩
          simp [h.next.read, hd, hskip]
      · obtain ⟨p', hskip, hquoted⟩ := ih h.next (by omega)
        refine ⟨p', ?_, Quoted.append [c] hquoted (quotedSpan_plain hquote hback q)⟩
        simp [hnul, hquote, hback, hskip]

/-! ## The scanners -/

/-- A byte that is not `d` where the string does not go on with `d`. -/
theorem At.read_ne {d : Char} (h : s.At p q) (hd : d ≠ '\x00') (hq : ∀ r, q ≠ d :: r) : q.headD '\x00' ≠ d := by
  cases q with
  | nil => exact hd.symm
  | cons c q =>
    rintro rfl
    exact hq q rfl

theorem At.memdupStr {text : CStr} (h : s.At p (text ++ rest)) :
    s.memdupStr p text.length = (malloc (text.length + 1)) >>= fun ok => pure (if ok then some text else none) := by
  unfold CString.memdupStr
  refine malloc_bind_congr ?_ rfl
  rw [h.span]
  rfl

/-- The test for the terminator is made by `is_space` too. -/
theorem isSpace_of_ne : (fun c => decide (c ≠ '\x00') && Header.isSpace c) = Header.isSpace := by
  funext c
  by_cases hc : c = '\x00'
  · rw [hc]
    rfl
  · simp [hc]

/-- `unquote` with pointers is `unquote` on what is left of the string. -/
theorem unquote_eq (hturns : s.bytes.length < turns) : unquote turns (some s) = OpenDbsc.unquote (some s.bytes) := by
  obtain ⟨value, hvalue, -, hat⟩ := (at_start (s := s)).skipWhile Header.isSpace rfl hturns
  unfold CString.unquote OpenDbsc.unquote
  simp only [hvalue, pure_bind, hat.read]
  by_cases hquote : ∃ start, s.bytes.dropWhile Header.isSpace = '"' :: start
  · obtain ⟨start, hstart⟩ := hquote
    rw [hstart] at hat
    have hopen := hat.next
    obtain ⟨p, hp, hquoted⟩ := hopen.skipQuoted (hopen.lt hturns)
    simp only [hstart, List.headD_cons, ne_eq, not_true_eq_false, if_false, hp, pure_bind]
    rcases hquoted with ⟨text, tail, hspan, rfl, hclose⟩ | ⟨hspan, hend⟩
    · rw [(quotedSpan_eq_some.mp hspan).1] at hopen
      obtain ⟨tail', htail, -, hafter⟩ := hclose.next.skipWhile Header.isSpace rfl (hclose.next.lt hturns)
      have hlen : value + 1 + text.length - (value + 1) = text.length := by omega
      simp only [hspan, hclose.read, List.headD_cons, not_true_eq_false, if_false, isSpace_of_ne, htail, pure_bind,
        hafter.read, hlen, hopen.memdupStr]
      cases hrest : tail.dropWhile Header.isSpace with
      | nil =>
        simp only [List.headD_nil, not_true_eq_false, if_false]
        exact malloc_bind_congr rfl rfl
      | cons d rest =>
        rw [hrest] at hafter
        have hd := hafter.ne_nul List.mem_cons_self
        simp [hd]
    · simp [hspan, hend.read]
  · have hne : ∀ start, s.bytes.dropWhile Header.isSpace ≠ '"' :: start := fun start hstart => hquote ⟨start, hstart⟩
    have hhead := hat.read_ne (by decide) hne
    rw [if_pos hhead]
    split
    · rename_i start hstart
      exact absurd hstart (hne start)
    · rfl

/-- What a parameter's pointers delimit. -/
def Delimits (s : CString) (p : Nat × Nat × Nat × Nat) (r : CStr × CStr × CStr) : Prop :=
  s.span p.1 (p.2.1 - p.1) = pure r.1 ∧ p.2.2.2 = p.2.2.1 + r.2.1.length ∧ s.At p.2.2.1 (r.2.1 ++ '"' :: r.2.2)

theorem At.skippedParameter (h : s.At p q) (hturns : s.bytes.length < turns) :
    ∃ out, s.skippedParameter turns p = pure out ∧ Option.Rel s.Delimits out (OpenDbsc.skippedParameter q) := by
  obtain ⟨keyStart, hstart, -, hkey⟩ := h.skipWhile Header.isSpace rfl (h.lt hturns)
  obtain ⟨keyEnd, hend, hkeyLen, hsep⟩ := hkey.skipWhile isTokenChar (by decide) (hkey.lt hturns)
  obtain ⟨p₁, hp₁, -, heq⟩ := hsep.skipWhile Header.isSpace rfl (hsep.lt hturns)
  unfold CString.skippedParameter OpenDbsc.skippedParameter
  simp only [hstart, hend, hp₁, pure_bind, heq.read]
  by_cases hequals : ∃ r, ((q.dropWhile Header.isSpace).dropWhile isTokenChar).dropWhile Header.isSpace = '=' :: r
  · obtain ⟨r, hr⟩ := hequals
    rw [hr] at heq
    obtain ⟨p₂, hp₂, -, hquote⟩ := heq.next.skipWhile Header.isSpace rfl (heq.next.lt hturns)
    simp only [hr, List.headD_cons, ne_eq, not_true_eq_false, if_false, hp₂, pure_bind, hquote.read]
    by_cases hopen : ∃ r', r.dropWhile Header.isSpace = '"' :: r'
    · obtain ⟨r', hr'⟩ := hopen
      rw [hr'] at hquote
      have hvalue := hquote.next
      obtain ⟨p₃, hp₃, hquoted⟩ := hvalue.skipQuoted (hvalue.lt hturns)
      simp only [hr', List.headD_cons, not_true_eq_false, if_false, hp₃, pure_bind]
      rcases hquoted with ⟨value, rest, hspan, rfl, hclose⟩ | ⟨hspan, hclose⟩
      · rw [(quotedSpan_eq_some.mp hspan).1] at hvalue
        have hkeySpan : s.span keyStart (keyEnd - keyStart) =
            pure ((q.dropWhile Header.isSpace).takeWhile isTokenChar) := by
          rw [← List.takeWhile_append_dropWhile (p := isTokenChar) (l := q.dropWhile Header.isSpace)] at hkey
          rw [hkeyLen, Nat.add_sub_cancel_left]
          exact hkey.span
        simp only [hclose.read, List.headD_cons, hspan, Option.map_some]
        exact ⟨_, rfl, .some ⟨hkeySpan, rfl, hvalue⟩⟩
      · simp only [hclose.read, List.headD_nil, hspan, Option.map_none]
        exact ⟨none, rfl, .none⟩
    · rw [if_pos (hquote.read_ne (by decide) fun r' hr' => hopen ⟨r', hr'⟩)]
      refine ⟨none, rfl, ?_⟩
      split
      · rename_i r' hr'
        exact absurd ⟨r', hr'⟩ hopen
      · exact .none
  · rw [if_pos (heq.read_ne (by decide) fun r hr => hequals ⟨r, hr⟩)]
    refine ⟨none, rfl, ?_⟩
    split
    · rename_i r hr
      exact absurd ⟨r, hr⟩ hequals
    · exact .none

/-- What is left after the parameters, and the last session identifier. -/
def Follows (s : CString) (r : Nat × Option CStr) (r' : CStr × Option CStr) : Prop := s.At r.1 r'.1 ∧ r.2 = r'.2

theorem At.skippedParameters {n m : Nat} (h : s.At p q) (hturns : s.bytes.length < turns) (hn : q.length < n)
    (hm : q.length ≤ m) (sessionId : Option CStr) :
    Alike (Option.Rel s.Follows) (s.skippedParameters turns n p sessionId)
      (OpenDbsc.skippedParameters m q sessionId) := by
  induction n generalizing p q m sessionId with
  | zero => omega
  | succ n ih =>
    rw [CString.skippedParameters, h.read, pure_bind]
    by_cases hsemi : ∃ r, q = ';' :: r
    · obtain ⟨r, rfl⟩ := hsemi
      rw [List.length_cons] at hn hm
      obtain ⟨m, rfl⟩ : ∃ m', m = m' + 1 := ⟨m - 1, by omega⟩
      obtain ⟨out, hout, hrel⟩ := h.next.skippedParameter hturns
      rw [OpenDbsc.skippedParameters, List.headD_cons, if_neg (not_not_intro rfl), hout, pure_bind]
      cases hparam : OpenDbsc.skippedParameter r with
      | none =>
        rw [hparam] at hrel
        cases hrel
        exact alike_pure .none
      | some r' =>
        obtain ⟨key, value, rest⟩ := r'
        rw [hparam] at hrel
        cases hrel with
        | @some pointers _ hdelimits =>
          obtain ⟨keyStart, keyEnd, valStart, valEnd⟩ := pointers
          obtain ⟨hkey, hend, hvalue⟩ := hdelimits
          dsimp only at hkey hend hvalue ⊢
          subst hend
          have hclose := hvalue.add value
          have hlt := skippedParameter_length hparam
          have hrest := ih (m := m) hclose.next (by omega) (by omega)
          rw [hkey, pure_bind, Nat.add_sub_cancel_left]
          by_cases hid : key = "session_identifier"
          · rw [if_pos hid, if_pos hid, hvalue.memdupStr, bind_assoc]
            refine alike_bind fun ok => ?_
            cases ok with
            | false => exact alike_pure .none
            | true => exact hrest _
          · rw [if_neg hid, if_neg hid]
            exact hrest _
    · rw [if_pos (h.read_ne (by decide) fun r hr => hsemi ⟨r, hr⟩),
        skippedParameters_of_ne fun r hr => hsemi ⟨r, hr⟩]
      exact alike_pure (.some ⟨h, rfl⟩)

theorem At.skippedEntries {n m : Nat} (h : s.At p q) (hturns : s.bytes.length < turns) (hn : q.length < n)
    (hm : q.length ≤ m) (entries : List SkippedEntry) (capacity : Nat) :
    Alike (fun out out' => out = out') (s.skippedEntries turns n p entries capacity)
      (OpenDbsc.skippedEntries m q entries capacity) := by
  induction n generalizing p q m entries capacity with
  | zero => omega
  | succ n ih =>
    rw [CString.skippedEntries, h.read, pure_bind]
    cases q with
    | nil =>
      have hend : OpenDbsc.skippedEntries m [] entries capacity = pure (some entries) := by cases m <;> rfl
      rw [hend]
      exact alike_pure rfl
    | cons c q =>
      obtain ⟨m, rfl⟩ : ∃ m', m = m' + 1 := ⟨m - 1, by simp at hm; omega⟩
      obtain ⟨tokStart, hsep, -, htok⟩ := h.skipWhile (fun c => Header.isSpace c || c = ',') (by decide)
        (h.lt hturns)
      have hle := dropWhile_length (fun c => Header.isSpace c || c = ',') (c :: q)
      rw [List.headD_cons, if_neg (h.ne_nul List.mem_cons_self), hsep, pure_bind, htok.read, pure_bind,
        OpenDbsc.skippedEntries]
      generalize (c :: q).dropWhile _ = d at htok hle
      cases d with
      | nil => exact alike_pure rfl
      | cons c' d =>
        obtain ⟨tokEnd, hend, hlen, hparams⟩ := htok.skipWhile isTokenChar (by decide) (htok.lt hturns)
        have htok' := htok
        rw [← List.takeWhile_append_dropWhile (p := isTokenChar) (l := c' :: d)] at htok'
        rw [List.headD_cons, if_neg (htok.ne_nul List.mem_cons_self), hend, pure_bind, hlen, Nat.add_sub_cancel_left]
        dsimp only
        by_cases hreason : (c' :: d).takeWhile isTokenChar = []
        · rw [if_pos hreason, if_pos (by rw [hreason]; rfl)]
          exact alike_pure rfl
        · rw [if_neg hreason, if_neg fun h0 => hreason (List.eq_nil_of_length_eq_zero h0), ← hlen]
          have hshort : ((c' :: d).dropWhile isTokenChar).length < (c' :: d).length := by
            have hadd := congrArg List.length (List.takeWhile_append_dropWhile (p := isTokenChar) (l := c' :: d))
            have hpos := List.length_pos_iff.mpr hreason
            rw [List.length_append] at hadd
            omega
          have halike := (hparams.skippedParameters hturns (hparams.lt hturns) (Nat.le_of_lt hshort) none).ensures
            (ensures_skippedParameters _ _ none)
          refine halike.bind fun out out' hout => ?_
          obtain ⟨hrel, hrest⟩ := hout
          cases hrel with
          | none => exact alike_pure rfl
          | @some r r' hfollows =>
            obtain ⟨p', sessionId⟩ := r
            obtain ⟨rest, sessionId'⟩ := r'
            obtain ⟨hat, hid⟩ := hfollows
            have hle' := hrest _ rfl
            dsimp only at hat hid hle' ⊢
            subst hid
            simp only [List.length_cons] at hle hn hm hshort
            have hloop := ih (m := m) hat (by omega) (by omega)
            rw [htok'.span, pure_bind]
            cases hvalid : isValidSkipReason ((c' :: d).takeWhile isTokenChar) with
            | false => exact hloop _ _
            | true =>
              cases sessionId with
              | none => exact hloop _ _
              | some sessionId =>
                refine alike_bind fun grown => ?_
                cases grown with
                | none => exact alike_pure rfl
                | some capacity =>
                  dsimp only
                  rw [htok'.memdupStr, bind_assoc]
                  refine alike_bind fun ok => ?_
                  cases ok with
                  | false => exact alike_pure rfl
                  | true => exact hloop _ _

end CString

/-! ## What the scanners return -/

theorem anyAnswer_growArray {count capacity elemSize : Nat} {Q : Option Nat → Prop} (h : ∀ grown, Q grown) :
    Returns AnyAnswer (growArray count capacity elemSize) Q := by
  unfold growArray
  split
  · exact h _
  · rw [returns_bind]
    exact anyAnswer_malloc.mpr ⟨h _, h _⟩

theorem quotedSpan_isInfix {s q text rest : CStr} (hspan : quotedSpan q = some (text, rest)) (hq : q <:+ s) :
    text <:+: s ∧ rest <:+ s := by
  obtain ⟨rfl, -⟩ := quotedSpan_eq_some.mp hspan
  refine ⟨(List.prefix_append text _).isInfix.trans hq.isInfix, ?_⟩
  exact ((List.suffix_cons '"' rest).trans (List.suffix_append text _)).trans hq

theorem unquote_isInfix (value : CStr) :
    Returns AnyAnswer (unquote (some value)) fun out => ∀ text, out = some text → text <:+: value := by
  simp only [unquote]
  have hsuffix : value.dropWhile Header.isSpace <:+ value := List.dropWhile_suffix _
  split
  · rename_i start hstart
    rw [hstart] at hsuffix
    split
    · rename_i text tail hspan
      have htext := (quotedSpan_isInfix hspan ((List.suffix_cons '"' start).trans hsuffix)).1
      split
      · simp
      · rw [returns_bind]
        exact anyAnswer_malloc.mpr (by simpa using htext)
    · simp
  · simp

theorem skippedParameter_isInfix {s p key value rest : CStr} (h : skippedParameter p = some (key, value, rest))
    (hp : p <:+ s) : value <:+: s ∧ rest <:+ s := by
  unfold skippedParameter at h
  dsimp only at h
  split at h
  · rename_i p₁ hp₁
    split at h
    · rename_i p₂ hp₂
      obtain ⟨⟨value₁, rest₁⟩, hspan, heq⟩ := Option.map_eq_some_iff.mp h
      cases heq
      refine quotedSpan_isInfix hspan ?_
      have h₁ : p₂ <:+ p₁ := (List.suffix_cons '"' p₂).trans (hp₂ ▸ List.dropWhile_suffix _)
      have h₂ : p₁ <:+ p := (List.suffix_cons '=' p₁).trans (hp₁ ▸
        (List.dropWhile_suffix _).trans ((List.dropWhile_suffix _).trans (List.dropWhile_suffix _)))
      exact h₁.trans (h₂.trans hp)
    · cases h
  · cases h

theorem skippedParameters_isInfix {s : CStr} {turns : Nat} {p : CStr} (hp : p <:+ s) (sessionId : Option CStr)
    (hid : ∀ id, sessionId = some id → id <:+: s) :
    Returns AnyAnswer (skippedParameters turns p sessionId) fun out =>
      ∀ r, out = some r → r.1 <:+ s ∧ ∀ id, r.2 = some id → id <:+: s := by
  induction turns generalizing p sessionId with
  | zero =>
    rintro r hr
    cases hr
    exact ⟨hp, hid⟩
  | succ turns ih =>
    by_cases hsemi : ∃ q, p = ';' :: q
    · obtain ⟨q, rfl⟩ := hsemi
      rw [skippedParameters]
      cases hparam : skippedParameter q with
      | none => simp
      | some r =>
        obtain ⟨key, value, rest⟩ := r
        obtain ⟨hvalue, hrest⟩ := skippedParameter_isInfix hparam ((List.suffix_cons ';' q).trans hp)
        dsimp only
        split
        · rw [returns_bind]
          refine anyAnswer_malloc.mpr ⟨ih hrest _ fun id h => ?_, by simp⟩
          cases h
          exact hvalue
        · exact ih hrest _ hid
    · rw [skippedParameters_of_ne fun q hq => hsemi ⟨q, hq⟩]
      rintro r hr
      cases hr
      exact ⟨hp, hid⟩

/-- The texts of an entry are in the string. -/
def SkippedEntry.Within (s : CStr) (entry : SkippedEntry) : Prop := entry.reason <:+: s ∧ entry.sessionId <:+: s

theorem skippedEntries_isInfix {s : CStr} {turns capacity : Nat} {p : CStr} {entries : List SkippedEntry} (hp : p <:+ s)
    (hentries : ∀ e ∈ entries, e.Within s) :
    Returns AnyAnswer (skippedEntries turns p entries capacity) fun out =>
      ∀ entries, out = some entries → ∀ e ∈ entries, e.Within s := by
  induction turns generalizing p entries capacity with
  | zero =>
    rintro _ hout
    cases hout
    exact hentries
  | succ turns ih =>
    have hsuffix := (List.dropWhile_suffix (l := p) fun c => Header.isSpace c || c = ',').trans hp
    rw [skippedEntries]
    generalize p.dropWhile _ = d at hsuffix
    cases d with
    | nil =>
      rintro _ hout
      cases hout
      exact hentries
    | cons c d =>
      dsimp only
      split
      · simp
      · have hreason : (c :: d).takeWhile isTokenChar <:+: s :=
          (List.takeWhile_prefix isTokenChar).isInfix.trans hsuffix.isInfix
        have hparams := (List.dropWhile_suffix isTokenChar).trans hsuffix
        refine (skippedParameters_isInfix hparams none (by simp)).bind fun out hout => ?_
        cases out with
        | none => simp
        | some r =>
          obtain ⟨rest, sessionId⟩ := r
          obtain ⟨hrest, hid⟩ := hout _ rfl
          dsimp only
          split
          · rename_i id _
            rw [returns_bind]
            refine anyAnswer_growArray fun grown => ?_
            cases grown with
            | none => simp
            | some capacity =>
              dsimp only
              rw [returns_bind]
              refine anyAnswer_malloc.mpr ⟨ih hrest fun e he => ?_, by simp⟩
              rcases List.mem_append.mp he with he | he
              · exact hentries e he
              · rw [List.mem_singleton.mp he]
                exact ⟨hreason, hid _ rfl⟩
          · exact ih hrest hentries

/-- **The scanners stay inside the string, and stop.** With more turns than the
string has bytes they return, whatever allocations fail, and what they return
are pieces of it. -/
theorem scanners_safe {s : CString} {turns : Nat} (hturns : s.bytes.length < turns) :
    (Returns AnyAnswer (CString.unquote turns (some s)) fun out => ∀ text, out = some text → text <:+: s.bytes) ∧
    Returns AnyAnswer (CString.parseSessionSkipped turns s) fun out =>
      ∀ entries, out = some entries → ∀ e ∈ entries, e.reason <:+: s.bytes ∧ e.sessionId <:+: s.bytes := by
  refine ⟨?_, ?_⟩
  · rw [CString.unquote_eq hturns]
    exact unquote_isInfix s.bytes
  · have halike := (CString.at_start (s := s)).skippedEntries hturns hturns (Nat.le_refl _) [] 0
    refine (halike.returns (skippedEntries_isInfix (List.suffix_refl s.bytes) (by simp))).mono ?_
    rintro out ⟨_, rfl, hout⟩
    exact hout

/-- A text that ends in an open quote and a backslash, and a list that ends so. -/
theorem scanners_safe_backslash :
    (Returns AnyAnswer (CString.unquote 4 (some ⟨"\"a\\", by decide⟩)) fun out =>
      ∀ text, out = some text → text <:+: ("\"a\\" : CStr)) ∧
    Returns AnyAnswer (CString.parseSessionSkipped 60 ⟨"a;session_identifier=\"1\", b;session_identifier=\"\\", by decide⟩)
      fun out => ∀ entries, out = some entries → ∀ e ∈ entries,
        e.reason <:+: ("a;session_identifier=\"1\", b;session_identifier=\"\\" : CStr) ∧
        e.sessionId <:+: ("a;session_identifier=\"1\", b;session_identifier=\"\\" : CStr) :=
  ⟨(scanners_safe (by decide)).1, (scanners_safe (by decide)).2⟩

end OpenDbsc
