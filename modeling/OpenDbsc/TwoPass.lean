/-
The serializers of `protocol/header.c`, and `build_set_cookie_with_max_age`,
pass by pass.

A first pass adds up the lengths in an `int`; a second one writes into a block
of that many bytes and one more, none of them written before. Each pass is
transcribed by itself. A sum that is no `int`, a byte behind the block, and
reading a byte that was never written have no answer.
-/
import OpenDbsc.ManagerFacts
import OpenDbsc.Records.Block
import OpenDbsc.SkippedRoundTrip

namespace OpenDbsc

open Effects Prog Records

namespace TwoPass

/-! ## Measuring -/

/-- `n += m`, of `int`s. -/
def addInt (n m : Int) : Prog Sys Int :=
  if n + m > intMax ∨ n + m < -1 - intMax then undefinedBehavior else pure (n + m)

/-- `n += snprintf(NULL, 0, ..)`. -/
def measure (n : Int) (text : CStr) : Prog Sys Int := addInt n (snprintfLength text)

/-- `(int)size`. -/
def intOfSize (size : Nat) : Int := Int.bmod size (2 ^ 32)

/-! ## Writing -/

/-- A block that is written from its start, and where the next byte goes. -/
structure Cursor where
  out : Block Char
  w : Nat

namespace Cursor

def memcpy (c : Cursor) (text : CStr) : Prog Sys Cursor :=
  match c.out.storeAll c.w text with
  | some out => pure ⟨out, c.w + text.length⟩
  | none => undefinedBehavior

/-- `*w = '\0'`. -/
def terminate (c : Cursor) : Prog Sys Cursor :=
  match c.out.store c.w '\x00' with
  | some out => pure { c with out }
  | none => undefinedBehavior

/-- `w += sprintf(w, ..)`: the text's length has to be an `int`. -/
def sprintf (c : Cursor) (text : CStr) : Prog Sys Cursor := do
  if intMax < text.length then undefinedBehavior
  else
    let c ← c.memcpy text
    c.terminate

end Cursor

/-- The C string at the start of a block. -/
def stringAt : Block Char → Prog Sys CStr
  | some c :: rest => if c = '\x00' then pure [] else (c :: ·) <$> stringAt rest
  | _ => undefinedBehavior

/-! ## Serializers -/

/-- What a serializer has measured and written when it returns `out`. -/
structure Serialized where
  n : Int
  w : Nat
  out : Block Char

/-- `malloc((size_t)n + 1)` between the passes. -/
def serialize (measuring : Prog Sys Int) (writing : Cursor → Prog Sys Cursor) : Prog Sys (Option Serialized) := do
  let n ← measuring
  let size := ((n + 1) % 2 ^ 64).toNat
  if !(← malloc size) then return none
  let c ← writing ⟨Block.fresh size, 0⟩
  return some ⟨n, c.w, c.out⟩

/-- The strings into the block, `sep` behind each but the last. -/
def copyStrings (sep : Char) : List CString → Cursor → Prog Sys Cursor
  | [], c => pure c
  | s :: rest, c => do
    let c ← c.memcpy s.bytes
    let c ← if rest ≠ [] then c.memcpy [sep] else pure c
    copyStrings sep rest c

/-- `total` of `join_strings`: no strings make an empty one. -/
def joinTotal (strings : List CString) : Nat :=
  if strings = [] then 0 else ((strings.map (·.bytes.length)).sum + (strings.length - 1)) % 2 ^ 64

/-- `join_strings`. -/
def joinStrings (strings : List CString) (sep : Char) : Prog Sys (Option (Block Char)) := do
  let size := (joinTotal strings + 1) % 2 ^ 64
  if !(← malloc size) then return none
  let c ← copyStrings sep strings ⟨Block.fresh size, 0⟩
  let c ← c.terminate
  return some c.out

/-- `;name="value"`, measured unless the value is null or empty. -/
def measureParam (n : Int) (name : CStr) : Option CStr → Prog Sys Int
  | none => pure n
  | some value => if value ≠ [] then measure n (";" ++ name ++ "=\"" ++ value ++ "\"") else pure n

/-- And written. -/
def Cursor.sprintfParam (c : Cursor) (name : CStr) : Option CStr → Prog Sys Cursor
  | none => pure c
  | some value => if value ≠ [] then c.sprintf (";" ++ name ++ "=\"" ++ value ++ "\"") else pure c

structure RegistrationParams where
  path : Option CStr
  challenge : Option CStr
  authorization : Option CStr
  providerKey : Option CStr
  providerSessionId : Option CStr
  providerUrl : Option CStr

def registrationMeasure (algs : CStr) (params : RegistrationParams) : Prog Sys Int := do
  let n ← measure 0 ("(" ++ algs ++ ")")
  let n ← measureParam n "path" params.path
  let n ← measureParam n "challenge" params.challenge
  let n ← measureParam n "authorization" params.authorization
  let n ← measureParam n "provider_key" params.providerKey
  let n ← measureParam n "provider_session_id" params.providerSessionId
  measureParam n "provider_url" params.providerUrl

def registrationWrite (algs : CStr) (params : RegistrationParams) (c : Cursor) : Prog Sys Cursor := do
  let c ← c.sprintf ("(" ++ algs ++ ")")
  let c ← c.sprintfParam "path" params.path
  let c ← c.sprintfParam "challenge" params.challenge
  let c ← c.sprintfParam "authorization" params.authorization
  let c ← c.sprintfParam "provider_key" params.providerKey
  let c ← c.sprintfParam "provider_session_id" params.providerSessionId
  c.sprintfParam "provider_url" params.providerUrl

/-- `opendbsc_registration_serialize`; the array is null only with a count. -/
def registrationSerialize (algorithms : Option (List CString)) (params : RegistrationParams) :
    Prog Sys (Option Serialized) := do
  let some algorithms := algorithms | return none
  let some block ← joinStrings algorithms ' ' | return none
  let algs ← stringAt block
  serialize (registrationMeasure algs params) (registrationWrite algs params)

/-- `opendbsc_challenge_serialize`. -/
def challengeSerialize (value sessionId : Option CStr) : Prog Sys (Option Serialized) := do
  let some value := value | return none
  serialize
    (do
      let n ← measure 0 ("\"" ++ value ++ "\"")
      measureParam n "id" sessionId)
    fun c => do
      let c ← c.sprintf ("\"" ++ value ++ "\"")
      c.sprintfParam "id" sessionId

def skippedMeasure : List SkippedArgument → Int → Prog Sys Int
  | [], n => pure n
  | entry :: rest, n => do
    let n ← measure n entry.reasonText
    let n ← if entry.sid ≠ [] then measure n (";session_identifier=\"" ++ entry.sid ++ "\"") else pure n
    let n ← if rest ≠ [] then addInt n 2 else pure n
    skippedMeasure rest n

def skippedWrite : List SkippedArgument → Cursor → Prog Sys Cursor
  | [], c => pure c
  | entry :: rest, c => do
    let c ← c.sprintf entry.reasonText
    let c ← if entry.sid ≠ [] then c.sprintf (";session_identifier=\"" ++ entry.sid ++ "\"") else pure c
    let c ← if rest ≠ [] then c.sprintf ", " else pure c
    skippedWrite rest c

/-- `opendbsc_session_skipped_serialize`; the array is null only with a count. -/
def sessionSkippedSerialize (entries : Option (List SkippedArgument)) : Prog Sys (Option Serialized) := do
  let some entries := entries | return none
  serialize (skippedMeasure entries 0) (skippedWrite entries)

/-- What both passes of `build_set_cookie_with_max_age` begin with. -/
def setCookieStart (cfg : ManagerConfig) (value : Option CStr) (maxAge : Int) : CStr :=
  percentS cfg.cookieName ++ "=" ++ percentS value ++ "; Path=" ++ percentS cfg.cookiePath ++ "; Max-Age=" ++
    percentD maxAge ++ "; HttpOnly" ++ (if cfg.secure then ("; Secure" : CStr) else [])

/-- The text before a `SameSite` value is measured with the start, the value by its `strlen`. -/
def setCookieMeasure (cfg : ManagerConfig) (value : Option CStr) (maxAge : Int) : Prog Sys Int := do
  let n ← measure 0 (setCookieStart cfg value maxAge ++
    (if (nonEmpty cfg.sameSite).isSome then ("; SameSite=" : CStr) else []))
  let n ← match nonEmpty cfg.sameSite with
    | some sameSite => addInt n (intOfSize sameSite.length)
    | none => pure n
  match nonEmpty cfg.cookieDomain with
  | some domain => measure n ("; Domain=" ++ domain)
  | none => pure n

def setCookieWrite (cfg : ManagerConfig) (value : Option CStr) (maxAge : Int) (c : Cursor) : Prog Sys Cursor := do
  let c ← c.sprintf (setCookieStart cfg value maxAge)
  let c ← match nonEmpty cfg.cookieDomain with
    | some domain => c.sprintf ("; Domain=" ++ domain)
    | none => pure c
  match nonEmpty cfg.sameSite with
  | some sameSite => c.sprintf ("; SameSite=" ++ sameSite)
  | none => pure c

def buildSetCookieWithMaxAge (cfg : ManagerConfig) (value : Option CStr) (maxAge : Int) :
    Prog Sys (Option Serialized) :=
  serialize (setCookieMeasure cfg value maxAge) (setCookieWrite cfg value maxAge)

/-! ## What a pass does with a list of texts -/

/-- The writing pass of these texts. -/
def writeTexts : List CStr → Cursor → Prog Sys Cursor
  | [], c => pure c
  | text :: texts, c => do
    let c ← c.sprintf text
    writeTexts texts c

theorem measured_cons (n : Int) (text : CStr) (texts : List CStr) :
    measured n (text :: texts) = measure n text >>= fun n => measured n texts := by
  unfold measure addInt
  rw [measured]
  split
  · rw [undefined_bind]
  · rw [pure_bind]

theorem measured_append (n : Int) (texts texts' : List CStr) :
    measured n (texts ++ texts') = measured n texts >>= fun n => measured n texts' := by
  induction texts generalizing n with
  | nil => rfl
  | cons text texts ih => simp only [List.cons_append, measured_cons, ih, bind_assoc]

theorem writeTexts_append (texts texts' : List CStr) (c : Cursor) :
    writeTexts (texts ++ texts') c = writeTexts texts c >>= fun c => writeTexts texts' c := by
  induction texts generalizing c with
  | nil => rfl
  | cons text texts ih => simp only [List.cons_append, writeTexts, ih, bind_assoc]

namespace Cursor

variable {c : Cursor} {text : CStr}

/-- Up to the cursor, `text` was written. -/
structure Wrote (c : Cursor) (text : CStr) : Prop where
  starts : c.out.Starts text
  w : c.w = text.length

theorem wrote_fresh (n : Nat) : Wrote ⟨Block.fresh n, 0⟩ [] := ⟨.nil, rfl⟩

theorem Wrote.memcpy (h : c.Wrote text) (text' : CStr) (hroom : text.length + text'.length ≤ c.out.length) :
    ∃ c', c.memcpy text' = pure c' ∧ c'.Wrote (text ++ text') ∧ c'.out.length = c.out.length := by
  obtain ⟨out, hstore, hstarts, hlen⟩ := h.starts.storeAll hroom
  refine ⟨⟨out, c.w + text'.length⟩, ?_, ⟨hstarts, by simp [h.w]⟩, hlen⟩
  rw [Cursor.memcpy, h.w, hstore]

theorem Wrote.memcpy_overflow (h : c.Wrote text) {text' : CStr} (hroom : c.out.length < text.length + text'.length) :
    c.memcpy text' = undefinedBehavior := by
  rw [Cursor.memcpy, h.w, Block.storeAll_overflow hroom h.starts.length_le]

theorem Wrote.terminate (h : c.Wrote text) (hroom : text.length < c.out.length) :
    ∃ c', c.terminate = pure c' ∧ c'.Wrote text ∧ c'.out.length = c.out.length ∧ c'.out.load c'.w = some '\x00' := by
  have hstore := Block.store_of_lt (x := '\x00') hroom
  refine ⟨⟨c.out.set text.length (some '\x00'), c.w⟩, ?_, ⟨?_, h.w⟩, Block.length_store hstore, ?_⟩
  · rw [Cursor.terminate, h.w, hstore]
  · exact h.starts.store (Nat.le_refl _) hstore
  · rw [h.w]
    exact Block.load_store hstore

theorem Wrote.terminate_overflow (h : c.Wrote text) (hroom : c.out.length ≤ text.length) :
    c.terminate = undefinedBehavior := by
  rw [Cursor.terminate, h.w, Block.store_eq_none.mpr hroom]

theorem Wrote.sprintf (h : c.Wrote text) {text' : CStr} (hint : text'.length ≤ intMax)
    (hroom : text.length + text'.length < c.out.length) :
    ∃ c', c.sprintf text' = pure c' ∧ c'.Wrote (text ++ text') ∧ c'.out.length = c.out.length ∧
      c'.out.load c'.w = some '\x00' := by
  obtain ⟨c₁, hcopy, hwrote, hlen⟩ := h.memcpy text' (by omega)
  obtain ⟨c₂, hend, hwrote', hlen', hnul⟩ := hwrote.terminate (by simp; omega)
  refine ⟨c₂, ?_, hwrote', hlen'.trans hlen, hnul⟩
  rw [Cursor.sprintf, if_neg (by omega), hcopy, pure_bind, hend]

/-- It ends, or has no answer. -/
theorem sprintf_cases (c : Cursor) (text : CStr) :
    c.sprintf text = undefinedBehavior ∨ ∃ c', c.sprintf text = pure c' := by
  unfold Cursor.sprintf Cursor.memcpy Cursor.terminate
  split
  · exact .inl rfl
  · cases c.out.storeAll c.w text with
    | none => exact .inl (undefined_bind _)
    | some out =>
      dsimp only
      rw [pure_bind]
      split
      · exact .inr ⟨_, rfl⟩
      · exact .inl rfl

/-- What the writing pass leaves, if the block has room for it and the terminator. -/
theorem Wrote.texts {texts : List CStr} (h : c.Wrote text) (hne : texts ≠ [])
    (hint : ∀ t ∈ texts, t.length ≤ intMax) (hroom : text.length + texts.flatten.length < c.out.length) :
    ∃ c', writeTexts texts c = pure c' ∧ c'.Wrote (text ++ texts.flatten) ∧ c'.out.length = c.out.length ∧
      c'.out.load c'.w = some '\x00' := by
  induction texts generalizing c text with
  | nil => exact absurd rfl hne
  | cons t texts ih =>
    rw [List.forall_mem_cons] at hint
    rw [List.flatten_cons, List.length_append] at hroom
    obtain ⟨c₁, hsprintf, hwrote, hlen, hnul⟩ := h.sprintf hint.1 (by omega)
    rw [writeTexts, hsprintf, pure_bind]
    cases texts with
    | nil => exact ⟨c₁, rfl, by simpa using hwrote, hlen, hnul⟩
    | cons t' texts =>
      have hlen' : (text ++ t).length = text.length + t.length := List.length_append
      obtain ⟨c₂, hrest, hwrote', hlen₂, hnul'⟩ := ih hwrote (by simp) hint.2 (by omega)
      exact ⟨c₂, hrest, by simpa using hwrote', hlen₂.trans hlen, hnul'⟩

theorem Wrote.texts_overflow {texts : List CStr} (h : c.Wrote text) (hne : texts ≠ [])
    (hroom : c.out.length ≤ text.length + texts.flatten.length) : writeTexts texts c = undefinedBehavior := by
  induction texts generalizing c text with
  | nil => exact absurd rfl hne
  | cons t texts ih =>
    rw [List.flatten_cons, List.length_append] at hroom
    rw [writeTexts]
    by_cases hint : intMax < t.length
    · rw [Cursor.sprintf, if_pos hint, undefined_bind]
    by_cases hfits : text.length + t.length < c.out.length
    · obtain ⟨c₁, hsprintf, hwrote, hlen, -⟩ := h.sprintf (Nat.not_lt.mp hint) hfits
      rw [hsprintf, pure_bind]
      have hlen' : (text ++ t).length = text.length + t.length := List.length_append
      refine ih hwrote ?_ (by omega)
      rintro rfl
      simp at hroom
      omega
    · rw [Cursor.sprintf, if_neg hint]
      by_cases hcopy : text.length + t.length ≤ c.out.length
      · obtain ⟨c₁, hmemcpy, hwrote, hlen⟩ := h.memcpy t hcopy
        rw [hmemcpy, pure_bind, hwrote.terminate_overflow (by simp; omega), undefined_bind]
      · rw [h.memcpy_overflow (by omega), undefined_bind, undefined_bind]

theorem writeTexts_long {texts : List CStr} (htext : ∃ t ∈ texts, intMax < t.length) (c : Cursor) :
    writeTexts texts c = undefinedBehavior := by
  induction texts generalizing c with
  | nil => simp at htext
  | cons t texts ih =>
    rw [writeTexts]
    by_cases hint : intMax < t.length
    · rw [Cursor.sprintf, if_pos hint, undefined_bind]
    · obtain hsprintf | ⟨c', hsprintf⟩ := sprintf_cases c t
      · rw [hsprintf, undefined_bind]
      · rw [hsprintf, pure_bind]
        exact ih (by simpa [hint] using htext) c'

end Cursor

/-! ## Both passes -/

theorem length_le_flatten {t : CStr} {texts : List CStr} (h : t ∈ texts) : t.length ≤ texts.flatten.length :=
  (List.sublist_flatten_of_mem h).length_le

/-- What is claimed of a serializer's block. -/
def Serialized.Exact (r : Serialized) : Prop :=
  r.n = r.w ∧ r.out.length = r.w + 1 ∧ r.out.load r.w = some '\x00'

/-- A serializer that returns what is exact, or null. -/
def FillsExactly (p : Prog Sys (Option Serialized)) : Prop :=
  Returns AnyAnswer p fun out => ∀ r, out = some r → r.Exact

/-- A measuring pass for these texts, right as long as their length is an
`int`. When it is none and theirs are, the pass overflows or is off, but is
not less than -1. -/
structure Measures (measuring : Prog Sys Int) (texts : List CStr) : Prop where
  fits : texts.flatten.length ≤ intMax → measuring = pure (texts.flatten.length : Int)
  overflows : intMax < texts.flatten.length → measuring = undefinedBehavior ∨
    ∃ n, measuring = pure n ∧ n ≤ intMax ∧ ((∀ text ∈ texts, text.length ≤ intMax) → -1 ≤ n)

section serialize

variable {measuring : Prog Sys Int} {texts : List CStr}

/-- The block of a text whose length is an `int`. -/
theorem Measures.serialize (h : Measures measuring texts) (hne : texts ≠ []) (hfits : texts.flatten.length ≤ intMax) :
    ∃ r, serialize measuring (writeTexts texts) =
        malloc (texts.flatten.length + 1) >>= (fun ok => pure (if ok then some r else none)) ∧
      r.Exact ∧ r.out.Starts (texts.flatten ++ ['\x00']) := by
  have hsize : (((texts.flatten.length : Nat) + 1 : Int) % 2 ^ 64).toNat = texts.flatten.length + 1 := by
    have hmax : intMax = 2147483647 := rfl
    omega
  have hint : ∀ t ∈ texts, t.length ≤ intMax := fun t ht => (length_le_flatten ht).trans hfits
  obtain ⟨c, hwrite, hwrote, hlen, hnul⟩ := (Cursor.wrote_fresh (texts.flatten.length + 1)).texts hne hint (by simp)
  rw [List.nil_append] at hwrote
  have hw := hwrote.w
  refine ⟨⟨texts.flatten.length, c.w, c.out⟩, ?_, ⟨by simp [hw], ?_, hnul⟩, ?_⟩
  · rw [TwoPass.serialize, h.fits hfits, pure_bind]
    simp only [hsize]
    refine malloc_bind_congr ?_ rfl
    simp only [Bool.not_true, Bool.false_eq_true, if_false, hwrite, pure_bind, if_true]
  · rw [hw, hlen, Block.length_fresh]
  · rw [hw] at hnul
    exact hwrote.starts.snoc hnul

/-- Without a text nothing is written, not even the terminator. -/
theorem not_fillsExactly_nil (h : Measures measuring []) : ¬ FillsExactly (serialize measuring (writeTexts [])) := by
  intro hfills
  rw [FillsExactly, TwoPass.serialize, h.fits (Nat.zero_le _), pure_bind, returns_bind] at hfills
  obtain ⟨-, -, hnul⟩ := (anyAnswer_malloc.mp hfills).1 _ rfl
  cases hnul

/-- A text whose length is no `int` goes past the block, if the sum does not overflow before. -/
theorem not_fillsExactly_long (h : Measures measuring texts) (hlong : intMax < texts.flatten.length) :
    ¬ FillsExactly (serialize measuring (writeTexts texts)) := by
  intro hfills
  rw [FillsExactly, TwoPass.serialize] at hfills
  obtain hmeasure | ⟨n, hmeasure, hle, hge⟩ := h.overflows hlong
  · rw [hmeasure, undefined_bind] at hfills
    exact anyAnswer_undefined hfills
  · rw [hmeasure, pure_bind, returns_bind] at hfills
    have hwrite : writeTexts texts ⟨Block.fresh ((n + 1) % 2 ^ 64).toNat, 0⟩ = undefinedBehavior := by
      by_cases htexts : ∀ text ∈ texts, text.length ≤ intMax
      · have hsize : ((n + 1) % 2 ^ 64).toNat ≤ texts.flatten.length := by
          have hmax : intMax = 2147483647 := rfl
          have hn := hge htexts
          omega
        refine (Cursor.wrote_fresh _).texts_overflow ?_ (by simpa using hsize)
        rintro rfl
        simp at hlong
      · refine Cursor.writeTexts_long ?_ _
        simpa using htexts
    have hbranch := (anyAnswer_malloc.mp hfills).1
    simp only [Bool.not_true, Bool.false_eq_true, if_false, hwrite, undefined_bind] at hbranch
    exact anyAnswer_undefined hbranch

/-- **When two passes fill their block exactly.** -/
theorem fillsExactly_iff (h : Measures measuring texts) :
    FillsExactly (serialize measuring (writeTexts texts)) ↔ texts ≠ [] ∧ texts.flatten.length ≤ intMax := by
  constructor
  · intro hfills
    refine ⟨?_, ?_⟩
    · rintro rfl
      exact not_fillsExactly_nil h hfills
    · by_contra hlong
      exact not_fillsExactly_long h (by omega) hfills
  · rintro ⟨hne, hfits⟩
    obtain ⟨r, hserialize, hexact, -⟩ := h.serialize hne hfits
    rw [FillsExactly, hserialize, returns_bind]
    refine anyAnswer_malloc.mpr ⟨?_, ?_⟩
    · rw [returns_pure]
      rintro r' hr
      cases hr
      exact hexact
    · simp

theorem measured_le {n m : Int} {texts : List CStr} (h : measured n texts = pure m) (hn : n ≤ intMax) :
    m ≤ intMax := by
  induction texts generalizing n with
  | nil =>
    cases h
    exact hn
  | cons text texts ih =>
    rw [measured] at h
    split at h
    · exact absurd h (undefined_ne_pure m)
    · exact ih h (by omega)

/-- The sum of the texts' own lengths. -/
theorem measures_measured (texts : List CStr) : Measures (measured 0 texts) texts := by
  refine ⟨fun hfits => ?_, fun hlong => ?_⟩
  · have hle : 0 + texts.flatten.length ≤ intMax := by omega
    have h := measured_fits hle
    rwa [Nat.zero_add] at h
  · by_cases htexts : ∀ text ∈ texts, text.length ≤ intMax
    · exact .inl (measured_overflows htexts (by omega) (Nat.zero_le _))
    · obtain hmeasure | ⟨m, hmeasure⟩ := measured_cases 0 texts
      · exact .inl hmeasure
      · exact .inr ⟨m, hmeasure, measured_le hmeasure (Int.natCast_nonneg _), fun h => absurd h htexts⟩

end serialize

end TwoPass

end OpenDbsc
