/-
`opendbsc_session_skipped_serialize`, and reading back what it writes.

The texts it writes are of the parser's form (`skippedText_written`), so the
entries that the parser keeps come back as they were, as long as the header's
length is an `int` (`skipped_roundtrip_iff`).
-/
import OpenDbsc.SkippedGrammar

namespace OpenDbsc

open Effects Prog

/-- An entry to write; each field may be NULL. -/
structure SkippedArgument where
  reason : Option CStr
  sessionId : Option CStr

namespace SkippedArgument

/-- A field, the empty string for NULL. -/
def reasonText (entry : SkippedArgument) : CStr := entry.reason.getD []

def sid (entry : SkippedArgument) : CStr := entry.sessionId.getD []

/-- A reason that is a token, and a session identifier without anything to escape. -/
structure Sendable (entry : SkippedArgument) : Prop where
  nonempty : entry.reasonText ≠ []
  reason : ∀ c ∈ entry.reasonText, isTokenChar c = true
  sid : ∀ c ∈ entry.sid, c ≠ '"' ∧ c ≠ '\\'

instance (entry : SkippedArgument) : Decidable entry.Sendable :=
  decidable_of_iff (entry.reasonText ≠ [] ∧ entry.reasonText.all isTokenChar = true ∧
      (entry.sid.all fun c => c != '"' && c != '\\') = true)
    ⟨fun h => ⟨h.1, List.all_eq_true.mp h.2.1, by simpa using h.2.2⟩,
      fun h => ⟨h.nonempty, List.all_eq_true.mpr h.reason, by simpa using h.sid⟩⟩

/-- What is to come back: an entry for a reason of the specification that has a session identifier. -/
def kept (entry : SkippedArgument) : Option SkippedEntry :=
  if isValidSkipReason entry.reasonText ∧ entry.sid ≠ [] then some ⟨entry.reasonText, entry.sid⟩ else none

end SkippedArgument

/-- The texts of the entries, in order. -/
def skippedTexts : List SkippedArgument → List CStr
  | [] => []
  | entry :: entries =>
    [entry.reasonText] ++ (if entry.sid ≠ [] then [";session_identifier=\"" ++ entry.sid ++ "\""] else []) ++
      (if entries ≠ [] then [", ".toList] else []) ++ skippedTexts entries

def sessionSkippedSerialize (entries : List SkippedArgument) : Prog Sys (Option CStr) :=
  serializeTexts (skippedTexts entries)

/-! ## What is written -/

def writtenParameter (sid : CStr) : RawParameter := ⟨[], "session_identifier", [], [], sid⟩

/-- The item that an entry is written as. -/
def SkippedArgument.item (entry : SkippedArgument) : RawItem :=
  ⟨entry.reasonText, if entry.sid ≠ [] then [writtenParameter entry.sid] else []⟩

theorem escapesWhole_of_plain {s : CStr} (h : ∀ c ∈ s, c ≠ '"' ∧ c ≠ '\\') : EscapesWhole s := by
  induction s with
  | nil => exact .nil
  | cons c s ih =>
    rw [List.forall_mem_cons] at h
    exact .plain h.1.1 h.1.2 (ih h.2)

theorem SkippedArgument.Sendable.item {entry : SkippedArgument} (h : entry.Sendable) : entry.item.Valid := by
  refine ⟨h.nonempty, h.reason, fun p hp => ?_⟩
  unfold SkippedArgument.item at hp
  split at hp
  · obtain rfl := List.mem_singleton.mp hp
    have hkey : ∀ c ∈ "session_identifier".toList, isTokenChar c = true := List.all_eq_true.mp (by decide)
    exact ⟨nofun, hkey, nofun, nofun, escapesWhole_of_plain h.sid⟩
  · cases hp

theorem skippedTexts_cons (entry : SkippedArgument) (entries : List SkippedArgument) :
    (skippedTexts (entry :: entries)).flatten =
      entry.item.text ++ ((if entries ≠ [] then ", ".toList else []) ++ (skippedTexts entries).flatten) := by
  by_cases hsid : entry.sid = [] <;> by_cases hentries : entries = [] <;>
    simp [skippedTexts, SkippedArgument.item, RawItem.text, parametersText, RawParameter.text, writtenParameter,
      hsid, hentries]

/-- What is written is of the parser's form. -/
theorem skippedText_written {entries : List SkippedArgument} (h : ∀ entry ∈ entries, entry.Sendable) {gap : CStr}
    (hgap : ∀ c ∈ gap, isGap c = true) :
    SkippedText (entries.map SkippedArgument.item) (gap ++ (skippedTexts entries).flatten) := by
  induction entries generalizing gap with
  | nil => simpa [skippedTexts] using SkippedText.blank hgap
  | cons entry entries ih =>
    rw [List.forall_mem_cons] at h
    rw [List.map_cons, skippedTexts_cons]
    have hsep : ∀ c ∈ (if entries ≠ [] then ", ".toList else []), isGap c = true := by
      split
      · exact List.all_eq_true.mp (by decide)
      · simp
    refine .item hgap h.1.item (fun _ c hc => ?_) (ih h.2 hsep)
    cases entries with
    | nil => simp [skippedTexts] at hc
    | cons entry' entries =>
      rw [if_pos (List.cons_ne_nil _ _)] at hc
      obtain rfl : ',' = c := by simpa using hc
      decide

theorem kept_item (entry : SkippedArgument) : entry.item.kept = entry.kept := by
  have hlast : sessionIdAfter none [writtenParameter entry.sid] = some entry.sid := by
    rw [sessionIdAfter, List.foldl_cons, List.foldl_nil]
    exact if_pos rfl
  unfold RawItem.kept SkippedArgument.kept keptEntry SkippedArgument.item
  by_cases hsid : entry.sid = []
  · have hdropped : ¬ (isValidSkipReason entry.reasonText = true ∧ entry.sid ≠ []) := fun h => h.2 hsid
    rw [if_neg (not_not.mpr hsid), if_neg hdropped]
    split <;> rfl
  · rw [if_pos hsid]
    simp only
    rw [hlast]
    by_cases hvalid : isValidSkipReason entry.reasonText = true
    · rw [if_pos hvalid, if_pos ⟨hvalid, hsid⟩]
      rfl
    · rw [if_neg hvalid, if_neg fun h => hvalid h.1]

theorem assuming_sessionSkippedSerialize {entries : List SkippedArgument} (hne : entries ≠ []) :
    (sessionSkippedSerialize entries).assuming allocOk =
      if (skippedTexts entries).flatten.length ≤ intMax then pure (some (skippedTexts entries).flatten)
      else undefinedBehavior := by
  refine assuming_serializeTexts ?_
  cases entries with
  | nil => exact absurd rfl hne
  | cons entry entries =>
    rw [skippedTexts, List.append_assoc, List.append_assoc]
    exact List.cons_ne_nil _ _

/-- Skipped sessions written and read. -/
def skippedRoundTrip (entries : List SkippedArgument) : Prog Sys (Option (List SkippedEntry)) := do
  let some header ← sessionSkippedSerialize entries | return none
  parseSessionSkipped header

theorem skippedRoundTrip_overflows {entries : List SkippedArgument} (hne : entries ≠ [])
    (h : intMax < (skippedTexts entries).flatten.length) :
    (skippedRoundTrip entries).assuming allocOk = undefinedBehavior := by
  rw [skippedRoundTrip, assuming_bind, assuming_sessionSkippedSerialize hne, if_neg (by omega), undefined_bind]

/-- **When skipped sessions come back.** -/
theorem skipped_roundtrip_iff {entries : List SkippedArgument} (hne : entries ≠ []) (h : ∀ entry ∈ entries, entry.Sendable) :
    (skippedRoundTrip entries).assuming allocOk = pure (some (entries.filterMap SkippedArgument.kept)) ↔
      (skippedTexts entries).flatten.length ≤ intMax := by
  by_cases hfits : (skippedTexts entries).flatten.length ≤ intMax
  · refine iff_of_true ?_ hfits
    rw [skippedRoundTrip, assuming_bind, assuming_sessionSkippedSerialize hne, if_pos hfits, pure_bind]
    have hgap : ∀ c ∈ ([] : CStr), isGap c = true := nofun
    refine (parses_iff _ _).mpr ⟨entries.map SkippedArgument.item, skippedText_written h hgap, ?_⟩
    rw [List.filterMap_map]
    exact congrArg (fun f => entries.filterMap f) (funext fun entry => (kept_item entry).symm)
  · rw [skippedRoundTrip_overflows hne (by omega)]
    exact iff_of_false (undefined_ne_pure _) hfits

/-- One entry that comes back, and one that does not. -/
theorem skipped_roundtrip_two :
    (skippedRoundTrip [⟨some "unreachable".toList, some "1".toList⟩, ⟨some "other".toList, none⟩]).assuming allocOk =
      pure (some [⟨"unreachable", "1"⟩]) := by
  have hsendable :
    ∀ entry ∈ [(⟨some "unreachable".toList, some "1".toList⟩ : SkippedArgument), ⟨some "other".toList, none⟩],
      entry.Sendable := by
    decide
  exact (skipped_roundtrip_iff (by simp) hsendable).mpr (by decide)

/-- An entry with a session identifier of `n` characters. -/
def longEntry (n : Nat) : SkippedArgument := ⟨some "unreachable", some (List.replicate n 'a')⟩

theorem sendable_longEntry (n : Nat) : (longEntry n).Sendable := by
  have hreason : "unreachable".toList ≠ [] ∧ "unreachable".toList.all isTokenChar = true := by decide
  refine ⟨hreason.1, List.all_eq_true.mp hreason.2, fun c hc => ?_⟩
  rw [List.eq_of_mem_replicate hc]
  decide

theorem longEntry_overflows {n : Nat} (h : intMax < n) :
    (skippedRoundTrip [longEntry n]).assuming allocOk = undefinedBehavior := by
  refine skippedRoundTrip_overflows (List.cons_ne_nil _ _) ?_
  have hlen : (longEntry n).sid.length = n := List.length_replicate
  have hsid : (longEntry n).sid ≠ [] := List.ne_nil_of_length_pos (by omega)
  rw [skippedTexts, if_pos hsid]
  simp only [List.flatten_append, List.flatten_singleton, List.length_append, hlen]
  omega

theorem longEntry_lost {n : Nat} (h : intMax < n) : (longEntry n).Sendable ∧
    (skippedRoundTrip [longEntry n]).assuming allocOk ≠ pure (some ([longEntry n].filterMap SkippedArgument.kept)) := by
  rw [longEntry_overflows h]
  exact ⟨sendable_longEntry n, undefined_ne_pure _⟩

/-- A session identifier of 2 GiB. -/
theorem skipped_overflows : (longEntry 2147483648).Sendable ∧
    (skippedRoundTrip [longEntry 2147483648]).assuming allocOk ≠
      pure (some ([longEntry 2147483648].filterMap SkippedArgument.kept)) :=
  longEntry_lost (Nat.lt_succ_self 2147483647)

end OpenDbsc
