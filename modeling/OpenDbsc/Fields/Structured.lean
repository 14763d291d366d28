/-
RFC 9651 structured field values: reading an inner list with its parameters.

Each function follows the algorithm of its section and returns what it read
with the rest of the input. `BareItem.size` bounds from below what an item
takes, which is why the loops end (`bareItem_size`) and why a quoted string is
never longer than the text between its quotes; it is that text exactly when
nothing in it was escaped (`stringBody_eq_some`).
-/
import Mathlib.Data.List.Basic

namespace StructuredFields

inductive BareItem where
  | integer (n : Int)
  /-- In thousandths. -/
  | decimal (n : Int)
  | string (s : List Char)
  | token (t : List Char)
  /-- The base64 text. -/
  | byteSequence (base64 : List Char)
  | boolean (b : Bool)
  | date (seconds : Int)
  | displayString (utf8 : List UInt8)

/-- A lower bound for the characters an item is written with. -/
def BareItem.size : BareItem → Nat
  | string s => s.length + 2
  | _ => 1

/-! ## Characters -/

/-- What a string may hold as it is or escaped. -/
def isPrintable (c : Char) : Bool := ' ' ≤ c && c ≤ '~'

def isLowerAlpha (c : Char) : Bool := 'a' ≤ c && c ≤ 'z'

def isKeyChar (c : Char) : Bool := isLowerAlpha c || c.isDigit || "_-.*".toList.contains c

def isTokenChar (c : Char) : Bool := c.isAlpha || c.isDigit || "!#$%&'*+-.^_`|~:/".toList.contains c

def isBase64Char (c : Char) : Bool := c.isAlpha || c.isDigit || "+/=".toList.contains c

def discardSpaces (s : List Char) : List Char := s.dropWhile (· == ' ')

/-! ## Bare items -/

def numeral (digits : List Char) : Int := digits.foldl (fun n c => n * 10 + (c.toNat - '0'.toNat : Nat)) 0

/-- Section 4.2.4, without the sign: an integer, or a decimal in thousandths. -/
def unsignedNumber (s : List Char) : Option (BareItem × List Char) :=
  let digits := s.takeWhile Char.isDigit
  if digits = [] then none
  else match s.dropWhile Char.isDigit with
    | '.' :: rest =>
      let fraction := rest.takeWhile Char.isDigit
      if digits.length > 12 ∨ fraction = [] ∨ fraction.length > 3 then none
      else some (.decimal (numeral (digits ++ fraction ++ List.replicate (3 - fraction.length) '0')),
        rest.dropWhile Char.isDigit)
    | rest => if digits.length > 15 then none else some (.integer (numeral digits), rest)

def negate : BareItem → BareItem
  | .integer n => .integer (-n)
  | .decimal n => .decimal (-n)
  | item => item

def number (s : List Char) : Option (BareItem × List Char) :=
  match s with
  | '-' :: rest => (unsignedNumber rest).map fun r => (negate r.1, r.2)
  | _ => unsignedNumber s

/-- Section 4.2.5, after the opening quote. -/
def stringBody : List Char → Option (List Char × List Char)
  | [] => none
  | '"' :: rest => some ([], rest)
  | '\\' :: c :: rest =>
    if c = '"' ∨ c = '\\' then (stringBody rest).map fun r => (c :: r.1, r.2) else none
  | c :: rest => if isPrintable c then (stringBody rest).map fun r => (c :: r.1, r.2) else none

/-- Section 4.2.6, whose first character has been looked at. -/
def token (s : List Char) : BareItem × List Char := (.token (s.takeWhile isTokenChar), s.dropWhile isTokenChar)

/-- Section 4.2.7, after the opening colon. -/
def byteSequence (s : List Char) : Option (BareItem × List Char) :=
  match s.dropWhile isBase64Char with
  | ':' :: rest => some (.byteSequence (s.takeWhile isBase64Char), rest)
  | _ => none

/-- Section 4.2.8, after the question mark. -/
def boolean : List Char → Option (BareItem × List Char)
  | '1' :: rest => some (.boolean true, rest)
  | '0' :: rest => some (.boolean false, rest)
  | _ => none

/-- Section 4.2.9, after the at sign. -/
def date (s : List Char) : Option (BareItem × List Char) :=
  match number s with
  | some (.integer n, rest) => some (.date n, rest)
  | _ => none

def lowerHex (c : Char) : Option Nat :=
  if '0' ≤ c ∧ c ≤ '9' then some (c.toNat - '0'.toNat)
  else if 'a' ≤ c ∧ c ≤ 'f' then some (c.toNat - 'a'.toNat + 10)
  else none

/-- Section 4.2.10, after the opening quote: the bytes. -/
def displayBody : List Char → Option (List UInt8 × List Char)
  | '"' :: rest => some ([], rest)
  | '%' :: a :: b :: rest => do
    let high ← lowerHex a
    let low ← lowerHex b
    let (bytes, rest) ← displayBody rest
    some (UInt8.ofNat (16 * high + low) :: bytes, rest)
  | c :: rest =>
    if isPrintable c ∧ c ≠ '%' then (displayBody rest).map fun r => (UInt8.ofNat c.toNat :: r.1, r.2) else none
  | [] => none

/-- After the percent sign. -/
def displayString : List Char → Option (BareItem × List Char)
  | '"' :: s => do
    let (bytes, rest) ← displayBody s
    if (ByteArray.mk bytes.toArray).validateUTF8 then some (.displayString bytes, rest) else none
  | _ => none

/-- Section 4.2.3.1. -/
def bareItem : List Char → Option (BareItem × List Char)
  | [] => none
  | c :: rest =>
    if c = '-' ∨ c.isDigit then number (c :: rest)
    else if c = '"' then (stringBody rest).map fun r => (.string r.1, r.2)
    else if c.isAlpha ∨ c = '*' then some (token (c :: rest))
    else if c = ':' then byteSequence rest
    else if c = '?' then boolean rest
    else if c = '@' then date rest
    else if c = '%' then displayString rest
    else none

/-! ## How much they read -/

theorem length_dropWhile_le (p : Char → Bool) (s : List Char) : (s.dropWhile p).length ≤ s.length :=
  (List.dropWhile_sublist p).length_le

theorem unsignedNumber_size {s rest : List Char} {item : BareItem} (h : unsignedNumber s = some (item, rest)) :
    item.size = 1 ∧ rest.length < s.length := by
  unfold unsignedNumber at h
  dsimp only at h
  by_cases hdigits : s.takeWhile Char.isDigit = []
  · rw [if_pos hdigits] at h
    cases h
  · rw [if_neg hdigits] at h
    have hlen : (s.takeWhile Char.isDigit).length + (s.dropWhile Char.isDigit).length = s.length := by
      rw [← List.length_append, List.takeWhile_append_dropWhile]
    have hpos := List.length_pos_iff.mpr hdigits
    split at h
    · rename_i rest₁ hrest
      split at h
      · cases h
      · cases h
        have hle := length_dropWhile_le Char.isDigit rest₁
        rw [hrest, List.length_cons] at hlen
        exact ⟨rfl, by omega⟩
    · split at h
      · cases h
      · cases h
        exact ⟨rfl, by omega⟩

theorem number_size {s rest : List Char} {item : BareItem} (h : number s = some (item, rest)) :
    item.size = 1 ∧ rest.length < s.length := by
  unfold number at h
  split at h
  · obtain ⟨⟨item₁, rest₁⟩, hnum, hitem⟩ := Option.map_eq_some_iff.mp h
    obtain ⟨hsize, hlen⟩ := unsignedNumber_size hnum
    simp only [Prod.mk.injEq] at hitem
    obtain ⟨rfl, rfl⟩ := hitem
    refine ⟨?_, ?_⟩
    · cases item₁ <;> exact hsize
    · rw [List.length_cons]
      omega
  · exact unsignedNumber_size h

/-- A string without escapes: what is between the quotes is what is read. -/
def Plain (s : List Char) : Prop := ∀ c ∈ s, isPrintable c = true ∧ c ≠ '"' ∧ c ≠ '\\'

instance : DecidablePred Plain := fun s =>
  decidable_of_iff ((s.all fun c => isPrintable c && (c != '"' && c != '\\')) = true) (by simp [Plain])

theorem Plain.of_cons {c : Char} {s : List Char} (h : Plain (c :: s)) :
    (isPrintable c = true ∧ c ≠ '"' ∧ c ≠ '\\') ∧ Plain s :=
  ⟨h c List.mem_cons_self, fun d hd => h d (List.mem_cons_of_mem c hd)⟩

theorem stringBody_plain {s : List Char} (h : Plain s) (rest : List Char) :
    stringBody (s ++ '"' :: rest) = some (s, rest) := by
  induction s with
  | nil => rfl
  | cons c s ih =>
    obtain ⟨⟨hc, hquote, hback⟩, hs⟩ := h.of_cons
    rw [List.cons_append, stringBody]
    · rw [if_pos hc, ih hs]
      rfl
    · exact hquote
    · intro _ _ he _
      exact hback he

/-- What a string starts with: its end, an escape, or a character that stands for itself. -/
theorem stringBody_step {s text rest : List Char} (h : stringBody s = some (text, rest)) :
    (s = '"' :: rest ∧ text = []) ∨
    (∃ c s₁ text₁, s = '\\' :: c :: s₁ ∧ text = c :: text₁ ∧ (c = '"' ∨ c = '\\') ∧
      stringBody s₁ = some (text₁, rest)) ∨
    ∃ c s₁ text₁, s = c :: s₁ ∧ text = c :: text₁ ∧ (isPrintable c = true ∧ c ≠ '"' ∧ c ≠ '\\') ∧
      stringBody s₁ = some (text₁, rest) := by
  unfold stringBody at h
  split at h
  · cases h
  · cases h
    exact .inl ⟨rfl, rfl⟩
  · rename_i c s₁
    obtain ⟨hc, h⟩ := Option.ite_none_right_eq_some.mp h
    obtain ⟨⟨text₁, rest₁⟩, hbody, heq⟩ := Option.map_eq_some_iff.mp h
    cases heq
    exact .inr (.inl ⟨c, s₁, text₁, rfl, rfl, hc, hbody⟩)
  · rename_i c s₁ hquote hback
    obtain ⟨hc, h⟩ := Option.ite_none_right_eq_some.mp h
    obtain ⟨⟨text₁, rest₁⟩, hbody, heq⟩ := Option.map_eq_some_iff.mp h
    cases heq
    have hne : c ≠ '\\' := by
      intro he
      cases s₁ with
      | nil => cases hbody
      | cons d s₁ => exact hback d s₁ he rfl
    exact .inr (.inr ⟨c, s₁, text₁, rfl, rfl, ⟨hc, hquote, hne⟩, hbody⟩)

/-- What a string was read from: its own text, or a longer one. -/
theorem stringBody_eq_some {s text rest : List Char} (h : stringBody s = some (text, rest)) :
    (s = text ++ '"' :: rest ∧ Plain text) ∨ text.length + rest.length + 1 < s.length := by
  induction text generalizing s with
  | nil =>
    rcases stringBody_step h with ⟨rfl, -⟩ | ⟨_, _, _, -, he, -⟩ | ⟨_, _, _, -, he, -⟩
    · exact .inl ⟨rfl, fun c hc => absurd hc List.not_mem_nil⟩
    · cases he
    · cases he
  | cons c text ih =>
    rcases stringBody_step h with ⟨-, he⟩ | ⟨_, s₁, _, rfl, he, -, hbody⟩ | ⟨_, s₁, _, rfl, he, hc, hbody⟩ <;> cases he
    · -- an escape is longer than what it stands for
      right
      rcases ih hbody with ⟨rfl, -⟩ | hlt
      · simp only [List.length_cons, List.length_append]
        omega
      · simp only [List.length_cons]
        omega
    · rcases ih hbody with ⟨rfl, hplain⟩ | hlt
      · refine .inl ⟨rfl, fun d hd => ?_⟩
        rcases List.mem_cons.mp hd with rfl | hd
        · exact hc
        · exact hplain d hd
      · right
        simp only [List.length_cons]
        omega

theorem byteSequence_size {s rest : List Char} {item : BareItem} (h : byteSequence s = some (item, rest)) :
    item.size = 1 ∧ rest.length < s.length := by
  unfold byteSequence at h
  split at h
  · rename_i rest₁ hrest
    cases h
    have hle := length_dropWhile_le isBase64Char s
    rw [hrest, List.length_cons] at hle
    exact ⟨rfl, hle⟩
  · cases h

theorem boolean_size {s rest : List Char} {item : BareItem} (h : boolean s = some (item, rest)) :
    item.size = 1 ∧ rest.length < s.length := by
  unfold boolean at h
  split at h
  · cases h
    exact ⟨rfl, Nat.lt_succ_self _⟩
  · cases h
    exact ⟨rfl, Nat.lt_succ_self _⟩
  · cases h

theorem date_size {s rest : List Char} {item : BareItem} (h : date s = some (item, rest)) :
    item.size = 1 ∧ rest.length < s.length := by
  unfold date at h
  split at h
  · rename_i hnum
    cases h
    exact ⟨rfl, (number_size hnum).2⟩
  · cases h

theorem displayBody_length {s rest : List Char} {bytes : List UInt8} (h : displayBody s = some (bytes, rest)) :
    rest.length < s.length := by
  induction s using displayBody.induct generalizing bytes rest with
  | case1 rest₁ =>
    cases h
    exact Nat.lt_succ_self _
  | case2 a b rest₁ ih =>
    simp only [displayBody, Option.bind_eq_bind, Option.bind_eq_some_iff, Option.some.injEq, Prod.mk.injEq] at h
    obtain ⟨_, -, _, -, ⟨bytes₁, rest₂⟩, hbody, -, rfl⟩ := h
    have hlt := ih hbody
    simp only [List.length_cons]
    omega
  | case3 c rest₁ hquote hpercent hc ih =>
    rw [displayBody, if_pos hc] at h
    · obtain ⟨⟨bytes₁, rest₂⟩, hbody, heq⟩ := Option.map_eq_some_iff.mp h
      cases heq
      have hlt := ih hbody
      simp only [List.length_cons]
      omega
    · exact hquote
    · exact hpercent
  | case4 c rest₁ hquote hpercent hc =>
    rw [displayBody, if_neg hc] at h
    · cases h
    · exact hquote
    · exact hpercent
  | case5 => cases h

theorem displayString_size {s rest : List Char} {item : BareItem} (h : displayString s = some (item, rest)) :
    item.size = 1 ∧ rest.length < s.length := by
  unfold displayString at h
  split at h
  · obtain ⟨⟨bytes, rest₁⟩, hbody, h₁⟩ := Option.bind_eq_some_iff.mp h
    dsimp only at h₁
    split at h₁
    · cases h₁
      exact ⟨rfl, Nat.lt_succ_of_lt (displayBody_length hbody)⟩
    · cases h₁
  · cases h

/-- **An item is written with at least its size.** -/
theorem bareItem_size {s rest : List Char} {item : BareItem} (h : bareItem s = some (item, rest)) :
    item.size + rest.length ≤ s.length := by
  cases s with
  | nil => cases h
  | cons c s =>
    have hone : ∀ {s' : List Char}, s'.length ≤ s.length + 1 → item.size = 1 ∧ rest.length < s'.length →
        item.size + rest.length ≤ (c :: s).length := by
      intro s' hle hsize
      rw [List.length_cons]
      omega
    rw [bareItem] at h
    split at h
    · exact hone (Nat.le_refl _) (number_size h)
    split at h
    · obtain ⟨⟨text, rest₁⟩, hbody, heq⟩ := Option.map_eq_some_iff.mp h
      cases heq
      simp only [BareItem.size, List.length_cons]
      rcases stringBody_eq_some hbody with ⟨rfl, -⟩ | hlt
      · simp only [List.length_append, List.length_cons]
        omega
      · omega
    split at h
    · rename_i hstart
      cases h
      have hc : isTokenChar c = true := by
        rcases hstart with halpha | rfl
        · simp [isTokenChar, halpha]
        · decide
      have hle := length_dropWhile_le isTokenChar s
      rw [List.dropWhile_cons_of_pos hc]
      simp only [BareItem.size, List.length_cons]
      omega
    split at h
    · exact hone (Nat.le_succ _) (byteSequence_size h)
    split at h
    · exact hone (Nat.le_succ _) (boolean_size h)
    split at h
    · exact hone (Nat.le_succ _) (date_size h)
    split at h
    · exact hone (Nat.le_succ _) (displayString_size h)
    · cases h

/-! ## Parameters -/

abbrev Parameters := List (List Char × BareItem)

/-- The value of a key; a key has at most one. -/
def Parameters.get (ps : Parameters) (key : List Char) : Option BareItem := (ps.find? fun p => p.1 == key).map (·.2)

/-- A key that is there already keeps its place. -/
def Parameters.set (ps : Parameters) (key : List Char) (value : BareItem) : Parameters :=
  if ps.any fun p => p.1 == key then ps.map fun p => if p.1 == key then (key, value) else p
  else ps ++ [(key, value)]

/-- Section 4.2.3.3. -/
def parseKey : List Char → Option (List Char × List Char)
  | [] => none
  | c :: rest =>
    if isLowerAlpha c ∨ c = '*' then some (c :: rest.takeWhile isKeyChar, rest.dropWhile isKeyChar) else none

/-- A parameter, after its semicolon. -/
def parameter (s : List Char) : Option (List Char × BareItem × List Char) := do
  let (key, rest) ← parseKey (discardSpaces s)
  match rest with
  | '=' :: rest => do
    let (value, rest) ← bareItem rest
    some (key, value, rest)
  | rest => some (key, .boolean true, rest)

theorem parseKey_length {s key rest : List Char} (h : parseKey s = some (key, rest)) : rest.length < s.length := by
  cases s with
  | nil => cases h
  | cons c s =>
    rw [parseKey] at h
    split at h
    · cases h
      exact Nat.lt_succ_of_le (length_dropWhile_le _ _)
    · cases h

theorem parameter_size {s key rest : List Char} {value : BareItem} (h : parameter s = some (key, value, rest)) :
    value.size + rest.length ≤ s.length := by
  obtain ⟨⟨key₁, rest₁⟩, hkey, h₁⟩ := Option.bind_eq_some_iff.mp h
  have hlt := parseKey_length hkey
  have hle : (discardSpaces s).length ≤ s.length := length_dropWhile_le _ s
  dsimp only at h₁
  split at h₁
  · rename_i rest₂
    obtain ⟨⟨value₁, rest₃⟩, hitem, heq⟩ := Option.bind_eq_some_iff.mp h₁
    simp only [Option.some.injEq, Prod.mk.injEq] at heq
    obtain ⟨rfl, rfl, rfl⟩ := heq
    have hsize := bareItem_size hitem
    rw [List.length_cons] at hlt
    omega
  · cases h₁
    simp only [BareItem.size]
    omega

/-- Section 4.2.3.2, after the parameters `ps`. -/
def parameters (ps : Parameters) (s : List Char) : Option (Parameters × List Char) :=
  match s with
  | ';' :: rest =>
    match h : parameter rest with
    | none => none
    | some (key, value, rest') => parameters (ps.set key value) rest'
  | s => some (ps, s)
termination_by s.length
decreasing_by
  have hsize := parameter_size h
  simp only [List.length_cons]
  omega

theorem parameters_cons (ps : Parameters) (rest : List Char) :
    parameters ps (';' :: rest) = (parameter rest).bind fun r => parameters (ps.set r.1 r.2.1) r.2.2 := by
  rw [parameters]
  split
  · rename_i h
    rw [h]
    rfl
  · rename_i h
    rw [h]
    rfl

theorem parameters_of_ne {ps : Parameters} {s : List Char} (h : ∀ rest, s ≠ ';' :: rest) :
    parameters ps s = some (ps, s) := by
  rw [parameters]
  exact h

theorem Parameters.mem_of_get {ps : Parameters} {key : List Char} {value : BareItem} (h : ps.get key = some value) :
    (key, value) ∈ ps := by
  obtain ⟨p, hfind, hvalue⟩ := Option.map_eq_some_iff.mp h
  have hbeq := List.find?_some hfind
  have hkey : p.1 = key := eq_of_beq hbeq
  have hp : p = (key, value) := Prod.ext hkey hvalue
  rw [← hp]
  exact List.mem_of_find?_eq_some hfind

theorem Parameters.mem_set {ps : Parameters} {key : List Char} {value : BareItem} {p : List Char × BareItem}
    (h : p ∈ ps.set key value) : p ∈ ps ∨ p = (key, value) := by
  unfold set at h
  split at h
  · obtain ⟨q, hq, heq⟩ := List.mem_map.mp h
    split at heq
    · exact .inr heq.symm
    · exact .inl (heq ▸ hq)
  · rcases List.mem_append.mp h with h | h
    · exact .inl h
    · exact .inr (List.mem_singleton.mp h)

/-- Each parameter read was there before or is written out in the input, which
is longer than its value. -/
theorem parameters_size {ps ps' : Parameters} {s rest : List Char} (h : parameters ps s = some (ps', rest)) :
    rest.length ≤ s.length ∧ ∀ p ∈ ps', p ∈ ps ∨ p.2.size < s.length := by
  generalize hn : s.length = n
  induction n using Nat.strongRecOn generalizing ps s with
  | ind n ih =>
    by_cases hs : ∃ s₁, s = ';' :: s₁
    · obtain ⟨s₁, rfl⟩ := hs
      rw [parameters_cons] at h
      obtain ⟨⟨key, value, s₂⟩, hparam, h₁⟩ := Option.bind_eq_some_iff.mp h
      have hsize := parameter_size hparam
      rw [List.length_cons] at hn
      obtain ⟨hlen, hall⟩ := ih s₂.length (by omega) h₁ rfl
      refine ⟨by omega, fun p hp => ?_⟩
      rcases hall p hp with hmem | hlt
      · rcases Parameters.mem_set hmem with hmem | rfl
        · exact .inl hmem
        · right
          show value.size < n
          omega
      · right
        omega
    · rw [parameters_of_ne fun s₁ heq => hs ⟨s₁, heq⟩] at h
      cases h
      exact ⟨by omega, fun p hp => .inl hp⟩

/-! ## Inner lists -/

abbrev Item := BareItem × Parameters

/-- Section 4.2.3. -/
def item (s : List Char) : Option (Item × List Char) := do
  let (bare, rest) ← bareItem s
  let (ps, rest) ← parameters [] rest
  some ((bare, ps), rest)

theorem item_length {s rest : List Char} {it : Item} (h : item s = some (it, rest)) : rest.length < s.length := by
  obtain ⟨⟨bare, rest₁⟩, hbare, h₁⟩ := Option.bind_eq_some_iff.mp h
  obtain ⟨⟨ps, rest₂⟩, hps, heq⟩ := Option.bind_eq_some_iff.mp h₁
  cases heq
  have hsize := bareItem_size hbare
  have hpos : 0 < bare.size := by cases bare <;> exact Nat.succ_pos _
  have hlen := (parameters_size hps).1
  omega

/-- Section 4.2.1.2, within the list and after `items`. -/
def innerItems (items : List Item) (s : List Char) : Option (List Item × Parameters × List Char) :=
  match hs : discardSpaces s with
  | [] => none
  | ')' :: rest => (parameters [] rest).map fun r => (items, r.1, r.2)
  | s' =>
    match h : item s' with
    | none => none
    | some (it, rest) =>
      if rest.head? = some ' ' ∨ rest.head? = some ')' then innerItems (items ++ [it]) rest else none
termination_by s.length
decreasing_by
  have hlt := item_length h
  have hle : (discardSpaces s).length ≤ s.length := length_dropWhile_le _ s
  rw [hs] at hle
  omega

def innerList : List Char → Option (List Item × Parameters × List Char)
  | '(' :: rest => innerItems [] rest
  | _ => none

/-- A field that is one inner list: section 4.2, with spaces around it. -/
def innerListField (s : List Char) : Option (List Item × Parameters) := do
  let (items, ps, rest) ← innerList (discardSpaces s)
  if discardSpaces rest = [] then some (items, ps) else none

/-! ## Reading what was written -/

structure IsKey (key : List Char) : Prop where
  start : ∃ c rest, key = c :: rest ∧ (isLowerAlpha c = true ∨ c = '*')
  chars : ∀ c ∈ key, isKeyChar c = true

structure IsToken (t : List Char) : Prop where
  start : ∃ c rest, t = c :: rest ∧ (c.isAlpha = true ∨ c = '*')
  chars : ∀ c ∈ t, isTokenChar c = true

instance : DecidablePred IsKey
  | [] => isFalse fun h => nomatch h.start
  | c :: rest => decidable_of_iff ((isLowerAlpha c = true ∨ c = '*') ∧ (c :: rest).all isKeyChar = true)
      ⟨fun h => ⟨⟨c, rest, rfl, h.1⟩, List.all_eq_true.mp h.2⟩,
        fun ⟨⟨_, _, he, hc⟩, hchars⟩ => ⟨(List.cons.inj he).1 ▸ hc, List.all_eq_true.mpr hchars⟩⟩

instance : DecidablePred IsToken
  | [] => isFalse fun h => nomatch h.start
  | c :: rest => decidable_of_iff ((c.isAlpha = true ∨ c = '*') ∧ (c :: rest).all isTokenChar = true)
      ⟨fun h => ⟨⟨c, rest, rfl, h.1⟩, List.all_eq_true.mp h.2⟩,
        fun ⟨⟨_, _, he, hc⟩, hchars⟩ => ⟨(List.cons.inj he).1 ▸ hc, List.all_eq_true.mpr hchars⟩⟩

theorem span_append {p : Char → Bool} {s : List Char} {c : Char} (rest : List Char) (hs : ∀ d ∈ s, p d = true)
    (hc : p c = false) :
    (s ++ c :: rest).takeWhile p = s ∧ (s ++ c :: rest).dropWhile p = c :: rest := by
  have hneg : ¬ p c = true := by rw [hc]; exact Bool.false_ne_true
  rw [List.takeWhile_append_of_pos hs, List.dropWhile_append_of_pos hs, List.takeWhile_cons_of_neg hneg,
    List.dropWhile_cons_of_neg hneg, List.append_nil]
  exact ⟨rfl, rfl⟩

theorem discardSpaces_cons {c : Char} (h : c ≠ ' ') (s : List Char) : discardSpaces (c :: s) = c :: s :=
  List.dropWhile_cons_of_neg (by simpa using h)

/-- A parameter whose value is a string starts with its key. -/
theorem parameter_string {key : List Char} (hkey : IsKey key) (s : List Char) :
    parameter (key ++ '=' :: '"' :: s) = (stringBody s).map fun r => (key, .string r.1, r.2) := by
  obtain ⟨⟨c, cs, rfl, hc⟩, hchars⟩ := hkey
  have hspace : c ≠ ' ' := by
    rcases hc with hc | rfl
    · rintro rfl
      exact absurd hc (by decide)
    · decide
  have hrest : ∀ d ∈ cs, isKeyChar d = true := fun d hd => hchars d (List.mem_cons_of_mem c hd)
  obtain ⟨htake, hdrop⟩ := span_append ('"' :: s) hrest (show isKeyChar '=' = false by decide)
  have hitem : bareItem ('"' :: s) = (stringBody s).map fun r => (.string r.1, r.2) := by
    rw [bareItem, if_neg (by decide), if_pos rfl]
  simp only [parameter, List.cons_append, discardSpaces_cons hspace, parseKey, if_pos hc, htake, hdrop,
    Option.bind_eq_bind, Option.bind_some, hitem]
  cases stringBody s <;> rfl

/-- A plain string parameter is read as it was written. -/
theorem parameters_string {key text : List Char} (hkey : IsKey key) (htext : Plain text) (ps : Parameters)
    (rest : List Char) :
    parameters ps (';' :: (key ++ '=' :: '"' :: (text ++ '"' :: rest))) =
      parameters (ps.set key (.string text)) rest := by
  rw [parameters_cons, parameter_string hkey, stringBody_plain htext]
  rfl

theorem parameters_nil (ps : Parameters) : parameters ps [] = some (ps, []) :=
  parameters_of_ne fun _ h => nomatch h

/-- A string parameter that was not plain text is read shorter than it was written, or ends early. -/
theorem parameters_string_size {key text : List Char} (hkey : IsKey key) (htext : ¬ Plain text) {ps ps' : Parameters}
    {rest : List Char} (h : parameters ps (';' :: (key ++ '=' :: '"' :: (text ++ ['"']))) = some (ps', rest)) :
    ∀ p ∈ ps', p ∈ ps ∨ p.2.size < text.length + 2 := by
  rw [parameters_cons, parameter_string hkey] at h
  obtain ⟨_, hmap, h₁⟩ := Option.bind_eq_some_iff.mp h
  obtain ⟨⟨text₁, rest₁⟩, hbody, rfl⟩ := Option.map_eq_some_iff.mp hmap
  have hlen : text₁.length < text.length ∧ rest₁.length < text.length + 1 := by
    rcases stringBody_eq_some hbody with ⟨heq, hplain⟩ | hlt
    · rcases List.eq_nil_or_concat rest₁ with rfl | ⟨rest₂, c, rfl⟩
      · rw [List.append_cancel_right heq] at htext
        exact absurd hplain htext
      · have hl := congrArg List.length heq
        simp only [List.concat_eq_append, List.length_append, List.length_cons, List.length_nil] at hl ⊢
        omega
    · simp only [List.length_append, List.length_cons, List.length_nil] at hlt
      omega
  intro p hp
  rcases (parameters_size h₁).2 p hp with hmem | hlt
  · rcases Parameters.mem_set hmem with hmem | rfl
    · exact .inl hmem
    · right
      simp only [BareItem.size]
      omega
  · right
    dsimp only at hlt
    omega

theorem isAlpha_iff {c : Char} :
    c.isAlpha = true ↔ ('A' ≤ c ∧ c ≤ 'Z') ∨ ('a' ≤ c ∧ c ≤ 'z') := by
  rw [show c.isAlpha = (decide (c.val ≥ 'A'.val ∧ c.val ≤ 'Z'.val) || (c.val ≥ 'a'.val && c.val ≤ 'z'.val)) from rfl]
  simp [Char.le_def]

theorem isDigit_iff {c : Char} : c.isDigit = true ↔ '0' ≤ c ∧ c ≤ '9' := by
  rw [show c.isDigit = (c.val ≥ '0'.val && c.val ≤ '9'.val) from rfl]
  simp [Char.le_def]

theorem not_isDigit_of_isAlpha {c : Char} (h : c.isAlpha = true) : c.isDigit = false := by
  rw [isAlpha_iff] at h
  rw [← Bool.not_eq_true, isDigit_iff]
  grind [Char.le_def]

/-- A token is read up to what is not of it. -/
theorem item_token {t : List Char} (ht : IsToken t) {c : Char} (hc : isTokenChar c = false) (hsemi : c ≠ ';')
    (rest : List Char) : item (t ++ c :: rest) = some ((.token t, []), c :: rest) := by
  obtain ⟨⟨d, ds, rfl, hd⟩, hchars⟩ := ht
  obtain ⟨htake, hdrop⟩ := span_append rest hchars hc
  have hstart : ¬ (d = '-' ∨ d.isDigit = true) ∧ d ≠ '"' := by
    rcases hd with hd | rfl
    · refine ⟨?_, ?_⟩
      · rintro (rfl | hdigit)
        · exact absurd hd (by decide)
        · exact absurd hdigit (Bool.eq_false_iff.mp (not_isDigit_of_isAlpha hd))
      · rintro rfl
        exact absurd hd (by decide)
    · decide
  have hbare : bareItem ((d :: ds) ++ c :: rest) = some (.token (d :: ds), c :: rest) := by
    rw [List.cons_append, bareItem, if_neg hstart.1, if_neg hstart.2, if_pos hd, token, ← List.cons_append, htake,
      hdrop]
  have hend : parameters [] (c :: rest) = some ([], c :: rest) :=
    parameters_of_ne fun _ heq => hsemi (List.cons.inj heq).1
  simp only [item, hbare, hend, Option.bind_eq_bind, Option.bind_some]

theorem innerItems_eq (items : List Item) (s : List Char) :
    innerItems items s = match discardSpaces s with
      | [] => none
      | ')' :: rest => (parameters [] rest).map fun r => (items, r.1, r.2)
      | s' => (item s').bind fun r =>
        if r.2.head? = some ' ' ∨ r.2.head? = some ')' then innerItems (items ++ [r.1]) r.2 else none := by
  rw [innerItems]
  split
  · rename_i hs
    rw [hs]
  · rename_i hs
    rw [hs]
    rfl
  · rename_i hnil hclose
    have hother : ∀ {β : Type} (x : β) (f : List Char → β) (g : List Char → β),
        (match discardSpaces s with
          | [] => x
          | ')' :: rest => f rest
          | s' => g s') = g (discardSpaces s) := by
      intro β x f g
      split
      · rename_i heq
        exact absurd heq hnil
      · rename_i heq
        exact absurd heq (hclose _)
      · rfl
    rw [hother]
    cases item (discardSpaces s) <;> rfl

theorem innerItems_space (items : List Item) (s : List Char) : innerItems items (' ' :: s) = innerItems items s := by
  rw [innerItems_eq, innerItems_eq items s]
  rfl

theorem innerItems_close (items : List Item) (rest : List Char) :
    innerItems items (')' :: rest) = (parameters [] rest).map fun r => (items, r.1, r.2) := by
  rw [innerItems_eq]
  rfl

theorem innerItems_item {items : List Item} {c : Char} {s rest : List Char} {it : Item} (hspace : c ≠ ' ')
    (hclose : c ≠ ')') (hitem : item (c :: s) = some (it, rest))
    (hrest : rest.head? = some ' ' ∨ rest.head? = some ')') :
    innerItems items (c :: s) = innerItems (items ++ [it]) rest := by
  rw [innerItems_eq, discardSpaces_cons hspace]
  split
  · rename_i heq
    cases heq
  · rename_i heq
    exact absurd (List.cons.inj heq).1 hclose
  · rw [hitem, Option.bind_some, if_pos hrest]

/-- Tokens between spaces are the items of a list. -/
theorem innerItems_tokens {ts : List (List Char)} (hts : ∀ t ∈ ts, IsToken t) (hne : ts ≠ []) (items : List Item)
    (rest : List Char) :
    innerItems items ([' '].intercalate ts ++ ')' :: rest) =
      (parameters [] rest).map fun r => (items ++ ts.map fun t => (.token t, []), r.1, r.2) := by
  induction ts generalizing items with
  | nil => exact absurd rfl hne
  | cons t ts ih =>
    have ht := hts t List.mem_cons_self
    have hitem : ∀ {d : Char}, isTokenChar d = false → d = ' ' ∨ d = ')' → ∀ s,
        innerItems items (t ++ d :: s) = innerItems (items ++ [(.token t, [])]) (d :: s) := by
      intro d hd hdel s
      have hread := item_token ht hd (by rcases hdel with rfl | rfl <;> decide) s
      obtain ⟨c, cs, rfl, hc⟩ := ht.start
      have hne : c ≠ ' ' ∧ c ≠ ')' := by
        rcases hc with hc | rfl
        · refine ⟨?_, ?_⟩ <;> rintro rfl <;> exact absurd hc (by decide)
        · decide
      exact innerItems_item hne.1 hne.2 hread (by rcases hdel with rfl | rfl <;> simp)
    cases ts with
    | nil =>
      rw [List.intercalate_singleton, hitem (by decide) (.inr rfl), innerItems_close]
      rfl
    | cons t' ts =>
      have htext : [' '].intercalate (t :: t' :: ts) ++ ')' :: rest =
          t ++ ' ' :: ([' '].intercalate (t' :: ts) ++ ')' :: rest) := by
        simp [List.intercalate]
      rw [htext, hitem (by decide) (.inl rfl), innerItems_space,
        ih (fun t₁ h₁ => hts t₁ (List.mem_cons_of_mem t h₁)) (List.cons_ne_nil _ _)]
      simp only [List.map_cons, List.append_assoc, List.singleton_append]

end StructuredFields
