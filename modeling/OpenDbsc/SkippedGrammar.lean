/-
What `opendbsc_parse_session_skipped` takes.

`SkippedText` is the form of the texts the scanner reads: reasons with
parameters `;key="text"`, spaces where it skips them, and spaces and commas in
any number between the items. With every allocation succeeding it returns the
items it keeps of such a text, and -1 on every other (`parses_iff`).
-/
import Mathlib.Data.List.TakeWhile
import OpenDbsc.HeaderStrings

namespace OpenDbsc

open Effects Prog

/-! ## The form -/

/-- A parameter as it is written, with its spaces: after the semicolon, after
the key and after the `=`. -/
structure RawParameter where
  before : CStr
  key : CStr
  between : CStr
  after : CStr
  value : CStr

namespace RawParameter

/-- What follows the semicolon. -/
def text (p : RawParameter) : CStr :=
  p.before ++ (p.key ++ (p.between ++ '=' :: (p.after ++ '"' :: (p.value ++ ['"']))))

structure Valid (p : RawParameter) : Prop where
  before : ∀ c ∈ p.before, Header.isSpace c = true
  key : ∀ c ∈ p.key, isTokenChar c = true
  between : ∀ c ∈ p.between, Header.isSpace c = true
  after : ∀ c ∈ p.after, Header.isSpace c = true
  value : EscapesWhole p.value

end RawParameter

def parametersText (ps : List RawParameter) : CStr := ps.flatMap fun p => ';' :: p.text

/-- The session identifier after the parameters: the last one, or what it was before them. -/
def sessionIdAfter (sessionId : Option CStr) (ps : List RawParameter) : Option CStr :=
  ps.foldl (fun sessionId (p : RawParameter) =>
    if p.key = "session_identifier" then some p.value else sessionId) sessionId

structure RawItem where
  reason : CStr
  params : List RawParameter

namespace RawItem

def text (item : RawItem) : CStr := item.reason ++ parametersText item.params

structure Valid (item : RawItem) : Prop where
  nonempty : item.reason ≠ []
  reason : ∀ c ∈ item.reason, isTokenChar c = true
  params : ∀ p ∈ item.params, p.Valid

end RawItem

/-- What may stand between items. -/
def isGap (c : Char) : Bool := Header.isSpace c || c = ','

/-- Items in a text; a reason without parameters has to end somewhere. -/
inductive SkippedText : List RawItem → CStr → Prop where
  | blank {gap : CStr} : (∀ c ∈ gap, isGap c = true) → SkippedText [] gap
  | item {gap rest : CStr} {item : RawItem} {items : List RawItem} : (∀ c ∈ gap, isGap c = true) → item.Valid →
      (item.params = [] → ∀ c ∈ rest.head?, isGap c = true) → SkippedText items rest →
        SkippedText (item :: items) (gap ++ (item.text ++ rest))

/-- An entry is kept for a reason that the specification has and with a session. -/
def keptEntry (reason : CStr) (sessionId : Option CStr) : Option SkippedEntry :=
  if isValidSkipReason reason then sessionId.map (SkippedEntry.mk reason) else none

def RawItem.kept (item : RawItem) : Option SkippedEntry := keptEntry item.reason (sessionIdAfter none item.params)

/-! ## With every allocation succeeding -/

/-- `skippedParameters`, as a decision. -/
def readParameters : Nat → CStr → Option CStr → Option (CStr × Option CStr)
  | turns + 1, ';' :: p, sessionId =>
    (skippedParameter p).bind fun r =>
      readParameters turns r.2.2 (if r.1 = "session_identifier" then some r.2.1 else sessionId)
  | _, p, sessionId => some (p, sessionId)

/-- `skippedEntries`, as a decision. -/
def readEntries : Nat → CStr → Option (List SkippedEntry)
  | 0, _ => some []
  | turns + 1, p =>
    match p.dropWhile isGap with
    | [] => some []
    | p =>
      if p.takeWhile isTokenChar = [] then none
      else (readParameters p.length (p.dropWhile isTokenChar) none).bind fun r =>
        (readEntries turns r.1).map ((keptEntry (p.takeWhile isTokenChar) r.2).toList ++ ·)

theorem readParameters_of_ne {p : CStr} (h : ∀ q, p ≠ ';' :: q) (turns : Nat) (sessionId : Option CStr) :
    readParameters turns p sessionId = some (p, sessionId) := by
  cases turns with
  | zero => rfl
  | succ turns =>
    rw [readParameters]
    intro _ q _ hq
    exact h q hq

theorem assuming_skippedParameters (turns : Nat) (p : CStr) (sessionId : Option CStr) :
    (skippedParameters turns p sessionId).assuming allocOk = pure (readParameters turns p sessionId) := by
  induction turns generalizing p sessionId with
  | zero => rfl
  | succ turns ih =>
    by_cases hp : ∃ q, p = ';' :: q
    · obtain ⟨q, rfl⟩ := hp
      rw [skippedParameters, readParameters]
      cases skippedParameter q with
      | none => rfl
      | some r =>
        obtain ⟨key, value, rest⟩ := r
        simp only [Option.bind_some]
        split
        · simp only [assuming_bind, assuming_malloc, pure_bind, Bool.not_true, Bool.false_eq_true, if_false, ih]
        · exact ih rest sessionId
    · have hne : ∀ q, p ≠ ';' :: q := fun q hq => hp ⟨q, hq⟩
      rw [skippedParameters_of_ne hne, readParameters_of_ne hne]
      rfl

theorem assuming_skippedEntries (turns : Nat) (p : CStr) (entries : List SkippedEntry) (capacity : Nat) :
    (skippedEntries turns p entries capacity).assuming allocOk = pure ((readEntries turns p).map (entries ++ ·)) := by
  induction turns generalizing p entries capacity with
  | zero => simp [skippedEntries, readEntries]
  | succ turns ih =>
    rw [skippedEntries, readEntries]
    have hgap : (fun c => Header.isSpace c || decide (c = ',')) = isGap := rfl
    rw [hgap]
    cases p.dropWhile isGap with
    | nil => simp
    | cons c p =>
      simp only
      split
      · rfl
      · simp only [assuming_bind, assuming_skippedParameters, pure_bind]
        cases readParameters (c :: p).length ((c :: p).dropWhile isTokenChar) none with
        | none => rfl
        | some r =>
          obtain ⟨rest, sessionId⟩ := r
          simp only [Option.bind_some, Option.map_map, keptEntry]
          cases isValidSkipReason ((c :: p).takeWhile isTokenChar) with
          | false => simp [ih, Function.comp_def]
          | true =>
            cases sessionId with
            | none => simp [ih, Function.comp_def]
            | some sessionId => simp [ih, Function.comp_def]

/-- `opendbsc_parse_session_skipped`, as a decision. -/
def readSkipped (value : CStr) : Option (List SkippedEntry) := readEntries value.length value

theorem assuming_parseSessionSkipped (value : CStr) :
    (parseSessionSkipped value).assuming allocOk = pure (readSkipped value) := by
  rw [parseSessionSkipped, assuming_skippedEntries, readSkipped]
  simp

/-! ## One parameter -/

theorem dropWhile_stop {p : Char → Bool} {s rest : CStr} (hs : ∀ c ∈ s, p c = true)
    (hrest : ∀ c ∈ rest.head?, p c = false) :
    (s ++ rest).takeWhile p = s ∧ (s ++ rest).dropWhile p = rest := by
  rw [List.takeWhile_append_of_pos hs, List.dropWhile_append_of_pos hs]
  cases rest with
  | nil => simp
  | cons c rest => simp [hrest c rfl]

/-- Neither a space nor a comma is of a token. -/
theorem not_isTokenChar_of_isGap {c : Char} (h : isGap c = true) : isTokenChar c = false := by
  simp only [isGap, Header.isSpace, Bool.or_eq_true, decide_eq_true_eq] at h
  rcases h with (((((rfl | rfl) | rfl) | rfl) | rfl) | rfl) | rfl <;> rfl

theorem not_isGap_of_isTokenChar {c : Char} (h : isTokenChar c = true) : isGap c = false := by
  cases hc : isGap c with
  | false => rfl
  | true => exact absurd h (by rw [not_isTokenChar_of_isGap hc]; exact Bool.false_ne_true)

theorem isGap_of_isSpace {c : Char} (h : Header.isSpace c = true) : isGap c = true := by
  rw [isGap, h, Bool.true_or]

theorem not_isSpace_of_isTokenChar {c : Char} (h : isTokenChar c = true) : Header.isSpace c = false := by
  cases hc : Header.isSpace c with
  | false => rfl
  | true => exact absurd (isGap_of_isSpace hc) (by rw [not_isGap_of_isTokenChar h]; exact Bool.false_ne_true)

/-- A key is what stands between the spaces. -/
theorem key_span {before key : CStr} (between rest : CStr) (hbefore : ∀ c ∈ before, Header.isSpace c = true)
    (hkey : ∀ c ∈ key, isTokenChar c = true) (hbetween : ∀ c ∈ between, Header.isSpace c = true)
    (hrest : ∀ c ∈ rest.head?, Header.isSpace c = false ∧ isTokenChar c = false) :
    ((before ++ (key ++ (between ++ rest))).dropWhile Header.isSpace).takeWhile isTokenChar = key ∧
      (((before ++ (key ++ (between ++ rest))).dropWhile Header.isSpace).dropWhile isTokenChar).dropWhile
        Header.isSpace = rest := by
  have hspaces := dropWhile_stop hbetween fun c hc => (hrest c hc).1
  rw [List.dropWhile_append_of_pos hbefore]
  cases key with
  | nil =>
    rw [List.nil_append, hspaces.2]
    have hstop := dropWhile_stop (s := []) (by simp) fun c hc => (hrest c hc).2
    have hnone := dropWhile_stop (s := []) (by simp) fun c hc => (hrest c hc).1
    rw [List.nil_append] at hstop hnone
    rw [hstop.1, hstop.2, hnone.2]
    exact ⟨rfl, rfl⟩
  | cons k key =>
    have hk : Header.isSpace k = false := not_isSpace_of_isTokenChar (hkey k List.mem_cons_self)
    have hnext : ∀ c ∈ (between ++ rest).head?, isTokenChar c = false := by
      intro c hc
      cases between with
      | nil => exact (hrest c hc).2
      | cons b between =>
        obtain rfl : b = c := by simpa using hc
        exact not_isTokenChar_of_isGap (isGap_of_isSpace (hbetween b List.mem_cons_self))
    have hspan := dropWhile_stop hkey hnext
    rw [List.cons_append, List.dropWhile_cons, if_neg (by simp [hk]), ← List.cons_append, hspan.1, hspan.2, hspaces.2]
    exact ⟨rfl, rfl⟩

theorem RawParameter.text_append (p : RawParameter) (rest : CStr) :
    p.text ++ rest = p.before ++ (p.key ++ (p.between ++ '=' :: (p.after ++ '"' :: (p.value ++ '"' :: rest)))) := by
  simp [RawParameter.text]

/-- A parameter is read up to its closing quote. -/
theorem skippedParameter_text {p : RawParameter} (hp : p.Valid) (rest : CStr) :
    skippedParameter (p.text ++ rest) = some (p.key, p.value, rest) := by
  obtain ⟨hkey, heq⟩ := key_span p.between
    ('=' :: (p.after ++ '"' :: (p.value ++ '"' :: rest))) hp.before hp.key hp.between
    fun c hc => by cases hc; decide
  have hquote : ∀ c ∈ ('"' :: (p.value ++ '"' :: rest)).head?, Header.isSpace c = false :=
    fun c hc => by cases hc; decide
  have hafter := (dropWhile_stop hp.after hquote).2
  rw [skippedParameter, p.text_append]
  simp only [hkey, heq, hafter, quotedSpan_eq_some.mpr ⟨rfl, hp.value⟩, Option.map_some]

/-- And nothing else is read. -/
theorem skippedParameter_reads {s key value rest : CStr} (h : skippedParameter s = some (key, value, rest)) :
    ∃ p : RawParameter, p.Valid ∧ p.key = key ∧ p.value = value ∧ s = p.text ++ rest := by
  unfold skippedParameter at h
  dsimp only at h
  split at h
  · rename_i s₁ hs₁
    split at h
    · rename_i s₂ hs₂
      obtain ⟨⟨value₁, rest₁⟩, hspan, heq⟩ := Option.map_eq_some_iff.mp h
      cases heq
      obtain ⟨rfl, hvalue⟩ := quotedSpan_eq_some.mp hspan
      have hafter := List.takeWhile_append_dropWhile (p := Header.isSpace) (l := s₁)
      have hbefore := List.takeWhile_append_dropWhile (p := Header.isSpace) (l := s)
      generalize s.dropWhile Header.isSpace = t at hs₁ hbefore
      have hkey := List.takeWhile_append_dropWhile (p := isTokenChar) (l := t)
      generalize t.dropWhile isTokenChar = u at hs₁ hkey
      have hbetween := List.takeWhile_append_dropWhile (p := Header.isSpace) (l := u)
      rw [hs₂] at hafter
      rw [hs₁] at hbetween
      refine ⟨⟨s.takeWhile Header.isSpace, t.takeWhile isTokenChar, u.takeWhile Header.isSpace,
        s₁.takeWhile Header.isSpace, _⟩,
        ⟨fun c => List.mem_takeWhile_imp, fun c => List.mem_takeWhile_imp, fun c => List.mem_takeWhile_imp,
          fun c => List.mem_takeWhile_imp, hvalue⟩, rfl, rfl, ?_⟩
      rw [RawParameter.text_append, hafter, hbetween, hkey, hbefore]
    · cases h
  · cases h

/-! ## Parameters -/

theorem parametersText_cons (p : RawParameter) (ps : List RawParameter) (rest : CStr) :
    parametersText (p :: ps) ++ rest = ';' :: (p.text ++ (parametersText ps ++ rest)) := by
  simp [parametersText]

/-- Parameters are read up to where the next semicolon would be. -/
theorem readParameters_text {ps : List RawParameter} (hps : ∀ p ∈ ps, p.Valid) {rest : CStr}
    (hrest : ∀ q, rest ≠ ';' :: q)
    {turns : Nat} (hturns : (parametersText ps ++ rest).length ≤ turns) (sessionId : Option CStr) :
    readParameters turns (parametersText ps ++ rest) sessionId = some (rest, sessionIdAfter sessionId ps) := by
  induction ps generalizing turns sessionId with
  | nil => exact readParameters_of_ne hrest turns sessionId
  | cons p ps ih =>
    rw [List.forall_mem_cons] at hps
    rw [parametersText_cons] at hturns ⊢
    simp only [List.length_cons, List.length_append] at hturns
    obtain ⟨turns, rfl⟩ : ∃ n, turns = n + 1 := ⟨turns - 1, by omega⟩
    rw [readParameters, skippedParameter_text hps.1, Option.bind_some, ih hps.2 (by rw [List.length_append]; omega)]
    rfl

/-- And nothing else is read. -/
theorem readParameters_reads {turns : Nat} {s rest : CStr} {sessionId sessionId' : Option CStr}
    (hturns : s.length ≤ turns)
    (h : readParameters turns s sessionId = some (rest, sessionId')) :
    ∃ ps : List RawParameter, (∀ p ∈ ps, p.Valid) ∧ (∀ q, rest ≠ ';' :: q) ∧ s = parametersText ps ++ rest ∧
      sessionId' = sessionIdAfter sessionId ps := by
  induction turns generalizing s sessionId with
  | zero =>
    obtain rfl := List.eq_nil_of_length_eq_zero (Nat.le_zero.mp hturns)
    cases h
    exact ⟨[], by simp, nofun, rfl, rfl⟩
  | succ turns ih =>
    by_cases hs : ∃ q, s = ';' :: q
    · obtain ⟨q, rfl⟩ := hs
      rw [readParameters] at h
      obtain ⟨⟨key, value, rest₁⟩, hparam, hread⟩ := Option.bind_eq_some_iff.mp h
      obtain ⟨p, hp, rfl, rfl, rfl⟩ := skippedParameter_reads hparam
      simp only [List.length_cons, List.length_append] at hturns
      obtain ⟨ps, hps, hrest, rfl, rfl⟩ := ih (show rest₁.length ≤ turns by omega) hread
      exact ⟨p :: ps, by simpa [hp] using hps, hrest, by rw [parametersText_cons], rfl⟩
    · have hne : ∀ q, s ≠ ';' :: q := fun q hq => hs ⟨q, hq⟩
      rw [readParameters_of_ne hne] at h
      cases h
      exact ⟨[], by simp, hne, rfl, rfl⟩

/-! ## Items -/

theorem SkippedText.head {items : List RawItem} {s : CStr} (h : SkippedText items s) :
    ∀ c ∈ s.head?, isGap c = true ∨ isTokenChar c = true := by
  intro c hc
  cases h with
  | blank hgap => exact .inl (hgap c (List.mem_of_mem_head? hc))
  | @item gap rest item _ hgap hitem _ _ =>
    cases gap with
    | cons d gap =>
      obtain rfl : d = c := by simpa using hc
      exact .inl (hgap d List.mem_cons_self)
    | nil =>
      obtain ⟨d, reason, hreason⟩ := List.exists_cons_of_ne_nil hitem.nonempty
      obtain rfl : d = c := by simpa [RawItem.text, hreason] using hc
      exact .inr (hitem.reason d (by simp [hreason]))

/-- What follows the parameters does not go on with them. -/
theorem SkippedText.head_ne {items : List RawItem} {s : CStr} (h : SkippedText items s) : ∀ q, s ≠ ';' :: q := by
  intro q hq
  have hhead := h.head ';' (by rw [hq]; rfl)
  revert hhead
  decide

/-- A turn of the scanner, after the gap. -/
theorem readEntries_gap {gap : CStr} (hgap : ∀ c ∈ gap, isGap c = true) {c : Char} (hc : isGap c = false)
    (s : CStr) (turns : Nat) :
    readEntries (turns + 1) (gap ++ c :: s) =
      if (c :: s).takeWhile isTokenChar = [] then none
      else (readParameters (c :: s).length ((c :: s).dropWhile isTokenChar) none).bind fun r =>
        (readEntries turns r.1).map ((keptEntry ((c :: s).takeWhile isTokenChar) r.2).toList ++ ·) := by
  have hdrop : (gap ++ c :: s).dropWhile isGap = c :: s := by
    rw [List.dropWhile_append_of_pos hgap, List.dropWhile_cons, if_neg (by simp [hc])]
  rw [readEntries, hdrop]

theorem kept_cons (item : RawItem) (items : List RawItem) :
    (keptEntry item.reason (sessionIdAfter none item.params)).toList ++ items.filterMap RawItem.kept =
      (item :: items).filterMap RawItem.kept := by
  rw [List.filterMap_cons, RawItem.kept]
  cases keptEntry item.reason (sessionIdAfter none item.params) <;> rfl

/-- A turn of the scanner, over an item. -/
theorem readEntries_item {gap rest : CStr} {item : RawItem} (hgap : ∀ c ∈ gap, isGap c = true) (hitem : item.Valid)
    (hends : item.params = [] → ∀ c ∈ rest.head?, isGap c = true) (hrest : ∀ q, rest ≠ ';' :: q) (turns : Nat) :
    readEntries (turns + 1) (gap ++ (item.text ++ rest)) =
      (readEntries turns rest).map ((keptEntry item.reason (sessionIdAfter none item.params)).toList ++ ·) := by
  obtain ⟨c, reason, hreason⟩ := List.exists_cons_of_ne_nil hitem.nonempty
  have hc : isGap c = false := not_isGap_of_isTokenChar (hitem.reason c (by simp [hreason]))
  have htext : item.text ++ rest = item.reason ++ (parametersText item.params ++ rest) := by simp [RawItem.text]
  have hcons : item.text ++ rest = c :: (reason ++ (parametersText item.params ++ rest)) := by rw [htext, hreason]; rfl
  have hnext : ∀ d ∈ (parametersText item.params ++ rest).head?, isTokenChar d = false := by
    intro d hd
    cases hparams : item.params with
    | nil =>
      rw [hparams] at hd
      exact not_isTokenChar_of_isGap (hends hparams d hd)
    | cons p ps =>
      rw [hparams, parametersText_cons] at hd
      cases hd
      rfl
  have hspan := dropWhile_stop hitem.reason hnext
  have hturns : (parametersText item.params ++ rest).length ≤ (item.text ++ rest).length := by
    rw [htext]
    simp
  have hparams := readParameters_text hitem.params hrest hturns none
  rw [hcons, readEntries_gap hgap hc, ← hcons, htext, hspan.1, hspan.2, ← htext, hparams, if_neg hitem.nonempty,
    Option.bind_some]

/-- **A text of the form is read.** -/
theorem SkippedText.reads {items : List RawItem} {s : CStr} (h : SkippedText items s) {turns : Nat}
    (hturns : s.length ≤ turns) :
    readEntries turns s = some (items.filterMap RawItem.kept) := by
  induction h generalizing turns with
  | blank hgap =>
    cases turns with
    | zero => rfl
    | succ turns =>
      rw [readEntries, List.dropWhile_eq_nil_iff.mpr hgap]
      rfl
  | @item gap rest item items hgap hitem hends hrest ih =>
    have hpos := List.length_pos_iff.mpr hitem.nonempty
    simp only [RawItem.text, List.length_append] at hturns
    obtain ⟨turns, rfl⟩ : ∃ n, turns = n + 1 := ⟨turns - 1, by omega⟩
    rw [readEntries_item hgap hitem hends hrest.head_ne, ih (by omega), Option.map_some, kept_cons]

/-- **And nothing else is read.** -/
theorem readEntries_reads {turns : Nat} {s : CStr} {entries : List SkippedEntry} (hturns : s.length ≤ turns)
    (h : readEntries turns s = some entries) :
    ∃ items, SkippedText items s ∧ entries = items.filterMap RawItem.kept := by
  induction turns generalizing s entries with
  | zero =>
    obtain rfl := List.eq_nil_of_length_eq_zero (Nat.le_zero.mp hturns)
    cases h
    exact ⟨[], .blank (by simp), rfl⟩
  | succ turns ih =>
    have hsplit := List.takeWhile_append_dropWhile (p := isGap) (l := s)
    have hgap : ∀ c ∈ s.takeWhile isGap, isGap c = true := fun c => List.mem_takeWhile_imp
    cases hrest : s.dropWhile isGap with
    | nil =>
      rw [readEntries, hrest] at h
      cases h
      exact ⟨[], .blank (List.dropWhile_eq_nil_iff.mp hrest), rfl⟩
    | cons c s' =>
      have hc : isGap c = false := by
        have hhead := List.head?_dropWhile_not isGap s
        rwa [hrest] at hhead
      rw [hrest] at hsplit
      rw [← hsplit, readEntries_gap hgap hc] at h
      split at h
      · cases h
      · rename_i hreason
        obtain ⟨⟨rest, sessionId⟩, hread, h⟩ := Option.bind_eq_some_iff.mp h
        obtain ⟨entries, hentries, rfl⟩ := Option.map_eq_some_iff.mp h
        have hitem := List.takeWhile_append_dropWhile (p := isTokenChar) (l := c :: s')
        have hstop := List.head?_dropWhile_not isTokenChar (c :: s')
        have hshort := dropWhile_length isTokenChar (c :: s')
        have htoken : ∀ d ∈ (c :: s').takeWhile isTokenChar, isTokenChar d = true := fun d => List.mem_takeWhile_imp
        generalize (c :: s').dropWhile isTokenChar = params at hread hitem hstop hshort
        generalize (c :: s').takeWhile isTokenChar = reason at hreason hitem htoken ⊢
        obtain ⟨ps, hps, -, rfl, rfl⟩ := readParameters_reads hshort hread
        have hlen : rest.length ≤ turns := by
          have hpos := List.length_pos_iff.mpr hreason
          rw [← hsplit, ← hitem] at hturns
          simp only [List.length_append] at hturns
          omega
        obtain ⟨items, htext, rfl⟩ := ih hlen hentries
        have hends : ps = [] → ∀ d ∈ rest.head?, isGap d = true := by
          intro hnone d hd
          rw [hnone] at hstop
          simp only [parametersText, List.flatMap_nil, List.nil_append, Option.mem_def.mp hd] at hstop
          exact (htext.head d hd).resolve_right (by simp [hstop])
        refine ⟨⟨reason, ps⟩ :: items, ?_, kept_cons ⟨reason, ps⟩ items⟩
        rw [← hsplit, ← hitem, ← List.append_assoc reason]
        exact .item hgap ⟨hreason, htoken, hps⟩ hends htext

theorem readSkipped_eq_some {value : CStr} {entries : List SkippedEntry} :
    readSkipped value = some entries ↔ ∃ items, SkippedText items value ∧ entries = items.filterMap RawItem.kept := by
  constructor
  · exact readEntries_reads (Nat.le_refl _)
  · intro ⟨items, htext, hentries⟩
    rw [readSkipped, htext.reads (Nat.le_refl _), hentries]

/-- **What the parser takes**, and what it makes of it. -/
theorem parses_iff (value : CStr) (entries : List SkippedEntry) :
    (parseSessionSkipped value).assuming allocOk = pure (some entries) ↔
      ∃ items, SkippedText items value ∧ entries = items.filterMap RawItem.kept := by
  rw [assuming_parseSessionSkipped, ← readSkipped_eq_some]
  constructor
  · intro h
    injection h
  · intro h
    rw [h]

end OpenDbsc
