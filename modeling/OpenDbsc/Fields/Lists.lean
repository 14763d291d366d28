/-
RFC 9651 lists of tokens with parameters.

A parameter that is written twice is in a member twice: `writtenParameters`
keeps what section 4.2.3.2 would take together (`parameters_eq_written`). The
`_iff` lemmas say what text a reading is of, one step at a time.
-/
import Mathlib.Data.List.TakeWhile
import OpenDbsc.Fields.Structured

namespace StructuredFields

/-! ## Parameters as they are written -/

abbrev WrittenParameters := List (List Char × BareItem)

/-- Section 4.2.3.2, each parameter in its place. -/
def writtenParameters (s : List Char) : Option (WrittenParameters × List Char) :=
  match s with
  | ';' :: rest =>
    match h : parameter rest with
    | none => none
    | some (key, value, rest') => (writtenParameters rest').map fun r => ((key, value) :: r.1, r.2)
  | s => some ([], s)
termination_by s.length
decreasing_by
  have hsize := parameter_size h
  simp only [List.length_cons]
  omega

theorem writtenParameters_semicolon (rest : List Char) :
    writtenParameters (';' :: rest) = (parameter rest).bind fun r =>
      (writtenParameters r.2.2).map fun r' => ((r.1, r.2.1) :: r'.1, r'.2) := by
  rw [writtenParameters]
  split
  · rename_i h
    rw [h]
    rfl
  · rename_i h
    rw [h]
    rfl

theorem writtenParameters_of_ne {s : List Char} (h : ∀ rest, s ≠ ';' :: rest) :
    writtenParameters s = some ([], s) := by
  rw [writtenParameters]
  exact h

theorem writtenParameters_nil_iff {s rest : List Char} :
    writtenParameters s = some ([], rest) ↔ s = rest ∧ ∀ s', rest ≠ ';' :: s' := by
  by_cases hs : ∃ s', s = ';' :: s'
  · obtain ⟨s', rfl⟩ := hs
    rw [writtenParameters_semicolon]
    constructor
    · intro h
      obtain ⟨_, -, h⟩ := Option.bind_eq_some_iff.mp h
      obtain ⟨_, -, h⟩ := Option.map_eq_some_iff.mp h
      cases h
    · intro ⟨hrest, hne⟩
      exact absurd hrest.symm (hne s')
  · have hne : ∀ s', s ≠ ';' :: s' := fun s' h => hs ⟨s', h⟩
    rw [writtenParameters_of_ne hne]
    constructor
    · intro h
      cases h
      exact ⟨rfl, hne⟩
    · intro ⟨h, _⟩
      rw [h]

theorem writtenParameters_cons_iff {s rest : List Char} {p : List Char × BareItem} {ps : WrittenParameters} :
    writtenParameters s = some (p :: ps, rest) ↔
      ∃ s' rest', s = ';' :: s' ∧ parameter s' = some (p.1, p.2, rest') ∧
        writtenParameters rest' = some (ps, rest) := by
  constructor
  · intro h
    by_cases hs : ∃ s', s = ';' :: s'
    · obtain ⟨s', rfl⟩ := hs
      rw [writtenParameters_semicolon] at h
      obtain ⟨⟨key, value, rest'⟩, hparam, h⟩ := Option.bind_eq_some_iff.mp h
      obtain ⟨⟨ps', rest₁⟩, hps, h⟩ := Option.map_eq_some_iff.mp h
      cases h
      exact ⟨s', rest', rfl, hparam, hps⟩
    · rw [writtenParameters_of_ne fun s' h => hs ⟨s', h⟩] at h
      cases h
  · intro ⟨s', rest', hs, hparam, hps⟩
    rw [hs, writtenParameters_semicolon, hparam, Option.bind_some, hps]
    rfl

/-- Section 4.2.3.2 takes together what is written. -/
theorem parameters_eq_written (ps : Parameters) (s : List Char) :
    parameters ps s = (writtenParameters s).map fun r => (r.1.foldl (fun ps p => ps.set p.1 p.2) ps, r.2) := by
  generalize hn : s.length = n
  induction n using Nat.strongRecOn generalizing ps s with
  | ind n ih =>
    by_cases hs : ∃ s', s = ';' :: s'
    · obtain ⟨s', rfl⟩ := hs
      rw [parameters_cons, writtenParameters_semicolon]
      cases hparam : parameter s' with
      | none => rfl
      | some r =>
        obtain ⟨key, value, rest⟩ := r
        have hsize := parameter_size hparam
        rw [List.length_cons] at hn
        simp only [Option.bind_some, ih rest.length (by omega) (ps.set key value) rest rfl, Option.map_map]
        rfl
    · have hne : ∀ s', s ≠ ';' :: s' := fun s' h => hs ⟨s', h⟩
      rw [parameters_of_ne hne, writtenParameters_of_ne hne]
      rfl

theorem writtenParameters_length {s rest : List Char} {ps : WrittenParameters}
    (h : writtenParameters s = some (ps, rest)) : rest.length ≤ s.length := by
  have hps := parameters_eq_written [] s
  rw [h, Option.map_some] at hps
  exact (parameters_size hps).1

/-! ## Members -/

abbrev Member := List Char × WrittenParameters

/-- Section 4.2.3, for an item that is a token. -/
def tokenItem : List Char → Option (Member × List Char)
  | [] => none
  | c :: rest =>
    if c.isAlpha ∨ c = '*' then
      (writtenParameters (rest.dropWhile isTokenChar)).map fun r => ((c :: rest.takeWhile isTokenChar, r.1), r.2)
    else none

/-- A token, then its parameters. -/
theorem tokenItem_iff {s rest : List Char} {member : Member} :
    tokenItem s = some (member, rest) ↔
      ∃ params, s = member.1 ++ params ∧ IsToken member.1 ∧ (∀ c ∈ params.head?, isTokenChar c = false) ∧
        writtenParameters params = some (member.2, rest) := by
  constructor
  · intro h
    cases s with
    | nil => cases h
    | cons c s =>
      rw [tokenItem] at h
      split at h
      · rename_i hc
        obtain ⟨⟨ps, rest'⟩, hps, heq⟩ := Option.map_eq_some_iff.mp h
        cases heq
        have htoken : isTokenChar c = true := by
          rcases hc with halpha | rfl
          · simp [isTokenChar, halpha]
          · decide
        refine ⟨s.dropWhile isTokenChar, ?_, ⟨⟨c, _, rfl, hc⟩, ?_⟩, ?_, hps⟩
        · simp
        · intro d hd
          rcases List.mem_cons.mp hd with rfl | hd
          · exact htoken
          · exact List.mem_takeWhile_imp hd
        · intro d hd
          have hhead := List.head?_dropWhile_not isTokenChar s
          rwa [Option.mem_def.mp hd] at hhead
      · cases h
  · obtain ⟨t, ps⟩ := member
    rintro ⟨params, hs, ⟨⟨c, cs, ht, hc⟩, hchars⟩, hstop, hps⟩
    dsimp only at hs ht hchars hps
    subst hs ht
    have hcs : ∀ d ∈ cs, isTokenChar d = true := fun d hd => hchars d (List.mem_cons_of_mem c hd)
    have hspan : (cs ++ params).takeWhile isTokenChar = cs ∧ (cs ++ params).dropWhile isTokenChar = params := by
      cases params with
      | nil => simpa using hcs
      | cons d params => exact span_append params hcs (hstop d rfl)
    rw [List.cons_append, tokenItem, if_pos hc, hspan.1, hspan.2, hps]
    rfl

theorem tokenItem_length {s rest : List Char} {member : Member}
    (h : tokenItem s = some (member, rest)) : rest.length < s.length := by
  obtain ⟨params, rfl, ⟨⟨c, cs, htoken, -⟩, -⟩, -, hps⟩ := tokenItem_iff.mp h
  have hle := writtenParameters_length hps
  rw [htoken]
  simp only [List.length_append, List.length_cons]
  omega

/-! ## Lists -/

def isOws (c : Char) : Bool := c = ' ' || c = '\t'

/-- Section 4.2.1, for members that are tokens. Nothing is read of an empty
text, so a comma at the end is refused as it has to be. -/
def tokenList (s : List Char) : Option (List Member) :=
  match h : tokenItem s with
  | none => none
  | some (member, rest) =>
    match hrest : rest.dropWhile isOws with
    | [] => some [member]
    | ',' :: rest' => (tokenList (rest'.dropWhile isOws)).map (member :: ·)
    | _ => none
termination_by s.length
decreasing_by
  have hlt := tokenItem_length h
  have hle := length_dropWhile_le isOws rest
  have hle' := length_dropWhile_le isOws rest'
  rw [hrest, List.length_cons] at hle
  omega

/-- A list is its first member, and a comma and a list if there are more. -/
theorem tokenList_iff {s : List Char} {members : List Member} :
    tokenList s = some members ↔ ∃ member rest, tokenItem s = some (member, rest) ∧
      (rest.dropWhile isOws = [] ∧ members = [member] ∨
        ∃ rest' members', rest.dropWhile isOws = ',' :: rest' ∧ tokenList (rest'.dropWhile isOws) = some members' ∧
          members = member :: members') := by
  rw [tokenList]
  split
  · rename_i h
    simp [h]
  · rename_i member rest h
    simp only [h, Option.some.injEq, Prod.mk.injEq]
    split
    · rename_i hrest
      constructor
      · intro heq
        cases heq
        exact ⟨member, rest, ⟨rfl, rfl⟩, .inl ⟨hrest, rfl⟩⟩
      · rintro ⟨_, _, ⟨rfl, rfl⟩, ⟨-, rfl⟩ | ⟨_, _, hcomma, -⟩⟩
        · rfl
        · rw [hrest] at hcomma
          cases hcomma
    · rename_i rest' hrest
      constructor
      · intro heq
        obtain ⟨members', hlist, rfl⟩ := Option.map_eq_some_iff.mp heq
        exact ⟨member, rest, ⟨rfl, rfl⟩, .inr ⟨rest', members', hrest, hlist, rfl⟩⟩
      · rintro ⟨_, _, ⟨rfl, rfl⟩, ⟨hnil, -⟩ | ⟨_, members', hcomma, hlist, rfl⟩⟩
        · rw [hrest] at hnil
          cases hnil
        · rw [hrest] at hcomma
          cases hcomma
          rw [hlist]
          rfl
    · rename_i hnil hcomma
      constructor
      · intro heq
        cases heq
      · rintro ⟨_, _, ⟨rfl, rfl⟩, ⟨h', -⟩ | ⟨rest', _, h', -⟩⟩
        · exact absurd h' hnil
        · exact absurd h' (hcomma rest')

/-! ## What a parameter is written as -/

def BareItem.isString : BareItem → Bool
  | string _ => true
  | _ => false

theorem BareItem.not_isString_of_size {item : BareItem} (h : item.size = 1) : item.isString = false := by
  cases item with
  | string s => simp [size] at h
  | _ => rfl

/-- What a bare item that is no string may start with. -/
def startsOther (c : Char) : Bool := c.isAlpha || c.isDigit || "-*:?@%".toList.contains c

/-- Only a string starts with a quote. -/
theorem bareItem_eq_some {s rest : List Char} {item : BareItem} (h : bareItem s = some (item, rest)) :
    (∃ s' text, s = '"' :: s' ∧ stringBody s' = some (text, rest) ∧ item = .string text) ∨
      item.isString = false ∧ ∃ c s', s = c :: s' ∧ startsOther c = true := by
  cases s with
  | nil => cases h
  | cons c s =>
    have hother : item.isString = false → startsOther c = true →
        (∃ s' text, c :: s = '"' :: s' ∧ stringBody s' = some (text, rest) ∧ item = .string text) ∨
          item.isString = false ∧ ∃ c' s', c :: s = c' :: s' ∧ startsOther c' = true :=
      fun hitem hc => .inr ⟨hitem, c, s, rfl, hc⟩
    rw [bareItem] at h
    split at h
    · rename_i hc
      refine hother (BareItem.not_isString_of_size (number_size h).1) ?_
      rcases hc with rfl | hc
      · decide
      · simp [startsOther, hc]
    split at h
    · rename_i hc
      obtain ⟨⟨text, rest'⟩, hbody, heq⟩ := Option.map_eq_some_iff.mp h
      cases heq
      exact .inl ⟨s, text, by rw [hc], hbody, rfl⟩
    split at h
    · rename_i hc
      cases h
      refine hother rfl ?_
      rcases hc with hc | rfl
      · simp [startsOther, hc]
      · decide
    split at h
    · rename_i hc
      exact hother (BareItem.not_isString_of_size (byteSequence_size h).1) (by rw [hc]; decide)
    split at h
    · rename_i hc
      exact hother (BareItem.not_isString_of_size (boolean_size h).1) (by rw [hc]; decide)
    split at h
    · rename_i hc
      exact hother (BareItem.not_isString_of_size (date_size h).1) (by rw [hc]; decide)
    split at h
    · rename_i hc
      exact hother (BareItem.not_isString_of_size (displayString_size h).1) (by rw [hc]; decide)
    · cases h

/-- Spaces and a key; then a value after `=`, or none. -/
theorem parameter_eq_some {s key rest : List Char} {value : BareItem} (h : parameter s = some (key, value, rest)) :
    ∃ spaces after, s = spaces ++ (key ++ after) ∧ (∀ c ∈ spaces, c = ' ') ∧ IsKey key ∧
      ((∃ s', after = '=' :: s' ∧ bareItem s' = some (value, rest)) ∨
        value = .boolean true ∧ after = rest ∧ ∀ c ∈ rest.head?, c ≠ '=') := by
  obtain ⟨⟨key₁, after⟩, hkey, h₁⟩ := Option.bind_eq_some_iff.mp h
  have hspaces := List.takeWhile_append_dropWhile (p := (· == ' ')) (l := s)
  have hspace : ∀ c ∈ s.takeWhile (· == ' '), c = ' ' :=
    fun c hc => eq_of_beq (List.mem_takeWhile_imp (p := (· == ' ')) hc)
  rw [discardSpaces] at hkey
  obtain ⟨hs, hiskey⟩ : s.dropWhile (· == ' ') = key₁ ++ after ∧ IsKey key₁ := by
    generalize s.dropWhile (· == ' ') = s₁ at hkey
    cases s₁ with
    | nil => cases hkey
    | cons c s₁ =>
      rw [parseKey] at hkey
      split at hkey
      · rename_i hc
        cases hkey
        refine ⟨by simp, ⟨c, _, rfl, hc⟩, fun d hd => ?_⟩
        rcases List.mem_cons.mp hd with rfl | hd
        · rcases hc with hc | rfl
          · simp [isKeyChar, hc]
          · decide
        · exact List.mem_takeWhile_imp hd
      · cases hkey
  rw [hs] at hspaces
  dsimp only at h₁
  split at h₁
  · rename_i s'
    obtain ⟨⟨value₁, rest₁⟩, hitem, heq⟩ := Option.bind_eq_some_iff.mp h₁
    cases heq
    exact ⟨_, _, hspaces.symm, hspace, hiskey, .inl ⟨s', rfl, hitem⟩⟩
  · rename_i hne
    cases h₁
    refine ⟨_, _, hspaces.symm, hspace, hiskey, .inr ⟨rfl, rfl, fun c hc hce => ?_⟩⟩
    obtain ⟨rest', hrest⟩ := List.head?_eq_some_iff.mp (Option.mem_def.mp hc)
    exact hne rest' (by rw [hrest, hce])

end StructuredFields
