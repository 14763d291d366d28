/-
The Secure-Session-Skipped header as the RFC 9651 list that it is by its documentation.

`skippedList` reads a value as the specification does, `listEntries` makes the
entries of it. The scanner takes only strings for parameters and leaves
escapes as they are; and it takes what is no list (`SkippedText`). Otherwise
the two agree (`skipped_list_iff`).
-/
import Mathlib.Data.List.DropRight
import OpenDbsc.Fields.Lists
import OpenDbsc.SkippedGrammar

namespace OpenDbsc

open Effects Prog
open StructuredFields (BareItem WrittenParameters Member IsKey isOws stringBody stringBody_step bareItem_eq_some parameter
  parameter_eq_some writtenParameters writtenParameters_nil_iff writtenParameters_cons_iff tokenItem tokenItem_iff
  tokenList tokenList_iff)

/-! ## The list that a value is -/

def trimmed (value : CStr) : CStr := (value.dropWhile Header.isSpace).rdropWhile Header.isSpace

/-- The members of the list, and none of a blank value. -/
def skippedList (value : CStr) : Option (List Member) :=
  if trimmed value = [] then some [] else tokenList (trimmed value)

/-- The last string that is a session identifier, or what it was before the parameters. -/
def identifierAfter (sessionId : Option CStr) (params : WrittenParameters) : Option CStr :=
  params.foldl (fun sessionId p =>
    match p with
    | (key, .string text) => if key = "session_identifier" then some text else sessionId
    | _ => sessionId) sessionId

def listEntry (member : Member) : Option SkippedEntry :=
  keptEntry member.1 (identifierAfter none member.2)

/-- The entries of a value that is a list. -/
def listEntries (value : CStr) : Option (List SkippedEntry) := (skippedList value).map (·.filterMap listEntry)

/-- Nothing in it has to be escaped. -/
def Unescaped (text : CStr) : Prop := ∀ c ∈ text, c ≠ '"' ∧ c ≠ '\\'

/-- Every parameter is a string. -/
def OnlyStrings (members : List Member) : Prop :=
  ∀ member ∈ members, ∀ p ∈ member.2, p.2.isString = true

/-! ## What is written for what is meant -/

/-- `raw` is written between quotes for `text`. -/
structure StandsFor (raw text : CStr) : Prop where
  whole : EscapesWhole raw
  same : raw = text ∧ Unescaped text ∨ text.length < raw.length ∧ ¬ Unescaped text

theorem StandsFor.eq_iff {raw text : CStr} (h : StandsFor raw text) : raw = text ↔ Unescaped text := by
  rcases h.same with ⟨heq, htext⟩ | ⟨hlt, htext⟩
  · exact iff_of_true heq htext
  · refine iff_of_false (fun heq => ?_) htext
    rw [heq] at hlt
    omega

theorem StandsFor.plain {raw text : CStr} {c : Char} (hquote : c ≠ '"') (hback : c ≠ '\\') (h : StandsFor raw text) :
    StandsFor (c :: raw) (c :: text) := by
  refine ⟨.plain hquote hback h.whole, ?_⟩
  rcases h.same with ⟨rfl, htext⟩ | ⟨hlt, htext⟩
  · refine .inl ⟨rfl, fun d hd => ?_⟩
    rcases List.mem_cons.mp hd with rfl | hd
    · exact ⟨hquote, hback⟩
    · exact htext d hd
  · refine .inr ⟨?_, fun hall => htext fun d hd => hall d (List.mem_cons_of_mem c hd)⟩
    simp only [List.length_cons]
    omega

theorem StandsFor.escape {raw text : CStr} {c : Char} (hc : c = '"' ∨ c = '\\') (h : StandsFor raw text) :
    StandsFor ('\\' :: c :: raw) (c :: text) := by
  refine ⟨.escape c h.whole, .inr ⟨?_, fun hall => ?_⟩⟩
  · rcases h.same with ⟨rfl, -⟩ | ⟨hlt, -⟩
    · simp
    · simp only [List.length_cons]
      omega
  · have hhead := hall c List.mem_cons_self
    rcases hc with rfl | rfl
    · exact hhead.1 rfl
    · exact hhead.2 rfl

/-- A string of the specification is one of the scanner's. -/
theorem standsFor_of_stringBody {s text rest : CStr} (h : stringBody s = some (text, rest)) :
    ∃ raw, s = raw ++ '"' :: rest ∧ StandsFor raw text := by
  induction text generalizing s with
  | nil =>
    rcases stringBody_step h with ⟨rfl, -⟩ | ⟨_, _, _, -, he, -⟩ | ⟨_, _, _, -, he, -⟩
    · exact ⟨[], rfl, .nil, .inl ⟨rfl, nofun⟩⟩
    · cases he
    · cases he
  | cons c text ih =>
    rcases stringBody_step h with ⟨-, he⟩ | ⟨_, s₁, _, rfl, he, hc, hbody⟩ | ⟨_, s₁, _, rfl, he, hc, hbody⟩ <;> cases he
    · obtain ⟨raw, rfl, hraw⟩ := ih hbody
      exact ⟨'\\' :: c :: raw, rfl, hraw.escape hc⟩
    · obtain ⟨raw, rfl, hraw⟩ := ih hbody
      exact ⟨c :: raw, rfl, hraw.plain hc.2.1 hc.2.2⟩

structure RawParameter.StandsFor (raw : RawParameter) (p : CStr × BareItem) : Prop where
  valid : raw.Valid
  key : raw.key = p.1
  value : ∃ text, p.2 = .string text ∧ OpenDbsc.StandsFor raw.value text

structure RawItem.StandsFor (raw : RawItem) (member : Member) : Prop where
  valid : raw.Valid
  reason : raw.reason = member.1
  params : List.Forall₂ RawParameter.StandsFor raw.params member.2

/-- The same parameter is the last session identifier. -/
theorem identifierAfter_stands {raws : List RawParameter} {params : WrittenParameters}
    (h : List.Forall₂ RawParameter.StandsFor raws params) {raw text : Option CStr}
    (hid : Option.Rel StandsFor raw text) :
    Option.Rel StandsFor (sessionIdAfter raw raws) (identifierAfter text params) := by
  induction h generalizing raw text with
  | nil => exact hid
  | @cons p q raws params hp _ ih =>
    obtain ⟨key, value⟩ := q
    obtain ⟨text₁, hvalue, htext⟩ := hp.value
    have hkey : p.key = key := hp.key
    dsimp only at hvalue
    subst hvalue
    rw [sessionIdAfter, identifierAfter, List.foldl_cons, List.foldl_cons, ← sessionIdAfter, ← identifierAfter]
    refine ih ?_
    rw [hkey]
    dsimp only
    by_cases hsession : key = "session_identifier"
    · rw [if_pos hsession, if_pos hsession]
      exact .some htext
    · rw [if_neg hsession, if_neg hsession]
      exact hid

/-- The scanner keeps the same items; their identifiers are the same when nothing is escaped in them. -/
theorem kept_iff {raws : List RawItem} {members : List Member} (h : List.Forall₂ RawItem.StandsFor raws members) :
    raws.filterMap RawItem.kept = members.filterMap listEntry ↔
      ∀ entry ∈ members.filterMap listEntry, Unescaped entry.sessionId := by
  induction h with
  | nil => simp
  | @cons raw member raws members hraw _ ih =>
    have hid := identifierAfter_stands hraw.params .none
    rw [List.filterMap_cons, List.filterMap_cons, RawItem.kept, listEntry, keptEntry, keptEntry, hraw.reason]
    cases isValidSkipReason member.1 with
    | false => simpa using ih
    | true =>
      revert hid
      generalize sessionIdAfter none raw.params = rawId
      generalize identifierAfter none member.2 = id
      intro hid
      cases hid with
      | none => simpa using ih
      | some hstands => simp [ih, hstands.eq_iff]

/-! ## Characters -/

/-- The scanner's token characters are those of the specification. -/
theorem isTokenChar_of_spec {c : Char} (h : StructuredFields.isTokenChar c = true) : isTokenChar c = true := by
  simp only [StructuredFields.isTokenChar, isTokenChar, Bool.or_eq_true, Bool.and_eq_true, decide_eq_true_eq,
    StructuredFields.isAlpha_iff, StructuredFields.isDigit_iff] at h ⊢
  rcases h with ((h | h) | h) | h
  · exact .inl (.inl (.inl h))
  · exact .inl (.inl (.inr h))
  · exact .inl (.inr h)
  · exact .inr h

theorem isTokenChar_of_isKeyChar {c : Char} (h : StructuredFields.isKeyChar c = true) : isTokenChar c = true := by
  simp only [StructuredFields.isKeyChar, StructuredFields.isLowerAlpha, Bool.or_eq_true] at h
  rcases h with (h | h) | h
  · simp [isTokenChar, h]
  · exact isTokenChar_of_spec (by simp [StructuredFields.isTokenChar, h])
  · have hall : "_-.*".toList.all isTokenChar = true := by decide
    exact List.all_eq_true.mp hall c (List.contains_iff_mem.mp h)

theorem isSpace_of_isOws {c : Char} (h : isOws c = true) : Header.isSpace c = true := by
  simp only [isOws, Bool.or_eq_true, decide_eq_true_eq] at h
  rcases h with rfl | rfl <;> rfl

/-- What a value that is no string starts with is neither a space nor a quote. -/
theorem startsOther_stops {c : Char} (h : StructuredFields.startsOther c = true) :
    Header.isSpace c = false ∧ c ≠ '"' := by
  simp only [StructuredFields.startsOther, Bool.or_eq_true] at h
  rcases h with h | h
  · have htoken : isTokenChar c = true := isTokenChar_of_spec (by simp [StructuredFields.isTokenChar, h])
    refine ⟨not_isSpace_of_isTokenChar htoken, fun hquote => ?_⟩
    rw [hquote] at htoken
    exact absurd htoken (by decide)
  · have hall : "-*:?@%".toList.all (fun d => !Header.isSpace d && d != '"') = true := by decide
    simpa using List.all_eq_true.mp hall c (List.contains_iff_mem.mp h)

/-! ## Parameters -/

/-- What may follow a parameter of a list, after spaces. -/
def EndsParameter (rest : CStr) : Prop := ∀ c ∈ (rest.dropWhile Header.isSpace).head?, c = ';' ∨ c = ','

theorem isSpace_of_spaces {spaces : CStr} (h : ∀ c ∈ spaces, c = ' ') :
    ∀ c ∈ spaces, Header.isSpace c = true := by
  intro c hc
  rw [h c hc]
  rfl

theorem IsKey.tokenChars {key : CStr} (h : IsKey key) : ∀ c ∈ key, isTokenChar c = true :=
  fun c hc => isTokenChar_of_isKeyChar (h.chars c hc)

/-- A string parameter is one of the scanner's. -/
theorem parameter_stands {s key rest : CStr} {value : BareItem} (h : parameter s = some (key, value, rest))
    (hvalue : value.isString = true) : ∃ raw : RawParameter, s = raw.text ++ rest ∧ raw.StandsFor (key, value) := by
  obtain ⟨spaces, after, rfl, hspaces, hkey, ⟨s', rfl, hitem⟩ | ⟨rfl, -⟩⟩ := parameter_eq_some h
  · obtain ⟨s'', text, rfl, hbody, rfl⟩ | ⟨hno, -⟩ := bareItem_eq_some hitem
    · obtain ⟨raw, rfl, hraw⟩ := standsFor_of_stringBody hbody
      have hvalid : RawParameter.Valid ⟨spaces, key, [], [], raw⟩ :=
        ⟨isSpace_of_spaces hspaces, IsKey.tokenChars hkey, nofun, nofun, hraw.whole⟩
      refine ⟨⟨spaces, key, [], [], raw⟩, ?_, hvalid, rfl, text, rfl, hraw⟩
      simp [RawParameter.text]
    · rw [hno] at hvalue
      cases hvalue
  · cases hvalue

/-- And any other the scanner refuses. -/
theorem parameter_refused {s key rest : CStr} {value : BareItem} (h : parameter s = some (key, value, rest))
    (hvalue : value.isString = false) {after : CStr} (hends : EndsParameter (rest ++ after)) :
    skippedParameter (s ++ after) = none := by
  obtain ⟨spaces, rest', rfl, hspaces, hkey, hrest⟩ := parameter_eq_some h
  have hbefore := isSpace_of_spaces hspaces
  have hchars := IsKey.tokenChars hkey
  rw [List.append_assoc, List.append_assoc]
  rcases hrest with ⟨s', rfl, hitem⟩ | ⟨rfl, rfl, -⟩
  · -- the value does not start with a quote
    obtain ⟨s'', text, rfl, hbody, rfl⟩ | ⟨-, c, s'', rfl, hc⟩ := bareItem_eq_some hitem
    · cases hvalue
    · obtain ⟨hspace, hquote⟩ := startsOther_stops hc
      obtain ⟨-, heq⟩ := key_span [] ('=' :: c :: (s'' ++ after)) hbefore hchars nofun
        fun d hd => by cases hd; decide
      have hnone : (c :: (s'' ++ after)).dropWhile Header.isSpace = c :: (s'' ++ after) := by
        rw [List.dropWhile_cons, if_neg (by simp [hspace])]
      rw [List.nil_append] at heq
      rw [skippedParameter]
      simp only [List.cons_append, heq, hnone]
      split
      · rename_i hcons
        exact absurd (List.cons.inj hcons).1 hquote
      · rfl
  · -- no value: what follows the key is not `=`
    have hsplit := List.takeWhile_append_dropWhile (p := Header.isSpace) (l := rest' ++ after)
    have hstop := List.head?_dropWhile_not Header.isSpace (rest' ++ after)
    unfold EndsParameter at hends
    generalize (rest' ++ after).dropWhile Header.isSpace = next at hsplit hstop hends
    have hnext : ∀ d ∈ next.head?, Header.isSpace d = false ∧ isTokenChar d = false ∧ d ≠ '=' := by
      intro d hd
      rcases hends d hd with rfl | rfl <;> decide
    obtain ⟨-, heq⟩ := key_span _ next hbefore hchars (fun d hd => List.mem_takeWhile_imp hd)
      fun d hd => ⟨(hnext d hd).1, (hnext d hd).2.1⟩
    rw [hsplit] at heq
    rw [skippedParameter]
    simp only [heq]
    split
    · exact absurd rfl (hnext '=' rfl).2.2
    · rfl

/-- What may follow a member of a list, after spaces. -/
def EndsMember (rest : CStr) : Prop := ∀ c ∈ (rest.dropWhile Header.isSpace).head?, c = ','

theorem parameters_stand {s rest : CStr} {params : WrittenParameters} (h : writtenParameters s = some (params, rest))
    (hparams : ∀ p ∈ params, p.2.isString = true) :
    ∃ raws, s = parametersText raws ++ rest ∧ List.Forall₂ RawParameter.StandsFor raws params := by
  induction params generalizing s with
  | nil => exact ⟨[], (writtenParameters_nil_iff.mp h).1, .nil⟩
  | cons p params ih =>
    rw [List.forall_mem_cons] at hparams
    obtain ⟨s', rest', rfl, hparam, hrest⟩ := writtenParameters_cons_iff.mp h
    obtain ⟨raw, rfl, hraw⟩ := parameter_stands hparam hparams.1
    obtain ⟨raws, rfl, hraws⟩ := ih hrest hparams.2
    exact ⟨raw :: raws, by rw [parametersText_cons], .cons hraw hraws⟩

theorem valid_of_stand {raws : List RawParameter} {params : WrittenParameters}
    (h : List.Forall₂ RawParameter.StandsFor raws params) : ∀ raw ∈ raws, raw.Valid := by
  induction h with
  | nil => exact nofun
  | cons hraw _ ih => exact List.forall_mem_cons.mpr ⟨hraw.valid, ih⟩

theorem parameters_refused {s rest : CStr} {params : WrittenParameters} (h : writtenParameters s = some (params, rest))
    (hparams : ¬ ∀ p ∈ params, p.2.isString = true) {after : CStr} (hends : EndsMember (rest ++ after)) {turns : Nat}
    (hturns : (s ++ after).length ≤ turns) (sessionId : Option CStr) :
    readParameters turns (s ++ after) sessionId = none := by
  induction params generalizing s turns sessionId with
  | nil => exact absurd (fun p hp => absurd hp List.not_mem_nil) hparams
  | cons p params ih =>
    obtain ⟨s', rest', rfl, hparam, hrest⟩ := writtenParameters_cons_iff.mp h
    simp only [List.cons_append, List.length_cons, List.length_append] at hturns ⊢
    obtain ⟨turns, rfl⟩ : ∃ n, turns = n + 1 := ⟨turns - 1, by omega⟩
    rw [readParameters]
    cases hp : p.2.isString with
    | true =>
      obtain ⟨raw, rfl, hraw⟩ := parameter_stands hparam hp
      have hothers : ¬ ∀ q ∈ params, q.2.isString = true :=
        fun hall => hparams (List.forall_mem_cons.mpr ⟨hp, hall⟩)
      rw [List.append_assoc, skippedParameter_text hraw.valid, Option.bind_some]
      refine ih hrest hothers ?_ _
      simp only [List.length_append] at hturns ⊢
      omega
    | false =>
      have hnext : EndsParameter (rest' ++ after) := by
        cases params with
        | nil =>
          obtain ⟨rfl, -⟩ := writtenParameters_nil_iff.mp hrest
          exact fun c hc => .inr (hends c hc)
        | cons q params =>
          obtain ⟨s₁, -, rfl, -⟩ := writtenParameters_cons_iff.mp hrest
          exact fun c hc => .inl (by cases hc; rfl)
      rw [parameter_refused hparam hp hnext, Option.bind_none]

/-! ## Members -/

theorem member_stands {s rest : CStr} {member : Member} (h : tokenItem s = some (member, rest))
    (hparams : ∀ p ∈ member.2, p.2.isString = true) :
    ∃ raw : RawItem, s = raw.text ++ rest ∧ raw.StandsFor member := by
  obtain ⟨params, rfl, htoken, -, hps⟩ := tokenItem_iff.mp h
  obtain ⟨raws, rfl, hraws⟩ := parameters_stand hps hparams
  have hne : member.1 ≠ [] := by
    obtain ⟨c, cs, heq, -⟩ := htoken.start
    rw [heq]
    exact List.cons_ne_nil c cs
  have hvalid : RawItem.Valid ⟨member.1, raws⟩ :=
    ⟨hne, fun c hc => isTokenChar_of_spec (htoken.chars c hc), valid_of_stand hraws⟩
  exact ⟨⟨member.1, raws⟩, by simp [RawItem.text], hvalid, rfl, hraws⟩

theorem member_refused {s rest : CStr} {member : Member} (h : tokenItem s = some (member, rest))
    (hparams : ¬ ∀ p ∈ member.2, p.2.isString = true) {gap after : CStr} (hgap : ∀ c ∈ gap, isGap c = true)
    (hends : EndsMember (rest ++ after)) (turns : Nat) : readEntries (turns + 1) (gap ++ (s ++ after)) = none := by
  obtain ⟨params, rfl, htoken, -, hps⟩ := tokenItem_iff.mp h
  have hreason : ∀ c ∈ member.1, isTokenChar c = true := fun c hc => isTokenChar_of_spec (htoken.chars c hc)
  obtain ⟨c, cs, hcons, -⟩ := htoken.start
  have hc : isGap c = false := not_isGap_of_isTokenChar (hreason c (by rw [hcons]; exact List.mem_cons_self))
  -- a parameter follows, as one is no string
  have hnext : ∀ d ∈ (params ++ after).head?, isTokenChar d = false := by
    cases hmember : member.2 with
    | nil => exact absurd (by rw [hmember]; nofun) hparams
    | cons p ps =>
      rw [hmember] at hps
      obtain ⟨s', -, rfl, -⟩ := writtenParameters_cons_iff.mp hps
      intro d hd
      cases hd
      rfl
  have hspan := dropWhile_stop hreason hnext
  have hturns : (params ++ after).length ≤ (member.1 ++ (params ++ after)).length := by simp
  have hread := parameters_refused hps hparams hends hturns none
  have htext : member.1 ++ (params ++ after) = c :: (cs ++ (params ++ after)) := by rw [hcons]; rfl
  rw [List.append_assoc, htext, readEntries_gap hgap hc, ← htext, hspan.1, hspan.2, hread, Option.bind_none, ite_self]

/-! ## Lists -/

/-- What stands between two members. -/
structure Separates (gap : CStr) : Prop where
  nonempty : gap ≠ []
  chars : ∀ c ∈ gap, isGap c = true
  ends : ∀ s, EndsMember (gap ++ s)

theorem Separates.head {gap : CStr} (h : Separates gap) (s : CStr) : ∀ c ∈ (gap ++ s).head?, isGap c = true := by
  intro c hc
  rw [List.head?_append_of_ne_nil _ h.nonempty] at hc
  exact h.chars c (List.mem_of_mem_head? hc)

theorem separates_comma {ows ows' : CStr} (hows : ∀ c ∈ ows, isOws c = true)
    (hows' : ∀ c ∈ ows', isOws c = true) : Separates (ows ++ ',' :: ows') := by
  have hgap : ∀ c, isOws c = true → isGap c = true := fun c hc => isGap_of_isSpace (isSpace_of_isOws hc)
  refine ⟨by simp, fun c hc => ?_, fun s c hc => ?_⟩
  · rcases List.mem_append.mp hc with hc | hc
    · exact hgap c (hows c hc)
    · rcases List.mem_cons.mp hc with rfl | hc
      · rfl
      · exact hgap c (hows' c hc)
  · rw [List.append_assoc, List.dropWhile_append_of_pos fun d hd => isSpace_of_isOws (hows d hd)] at hc
    cases hc
    rfl

/-- A list is its first member, and after a comma a list if there are more. -/
theorem tokenList_split {s : CStr} {members : List Member} (h : tokenList s = some members) :
    ∃ member rest, tokenItem s = some (member, rest) ∧
      ((∀ c ∈ rest, Header.isSpace c = true) ∧ members = [member] ∨
        ∃ gap s' members', rest = gap ++ s' ∧ Separates gap ∧ tokenList s' = some members' ∧
          members = member :: members') := by
  obtain ⟨member, rest, hmember, hlist⟩ := tokenList_iff.mp h
  refine ⟨member, rest, hmember, ?_⟩
  rcases hlist with ⟨hnil, hone⟩ | ⟨rest', members', hcomma, hrest, hmore⟩
  · exact .inl ⟨fun c hc => isSpace_of_isOws (List.dropWhile_eq_nil_iff.mp hnil c hc), hone⟩
  · have hsplit := List.takeWhile_append_dropWhile (p := isOws) (l := rest)
    have hsplit' := List.takeWhile_append_dropWhile (p := isOws) (l := rest')
    have hseparates := separates_comma (fun c (hc : c ∈ rest.takeWhile isOws) => List.mem_takeWhile_imp hc)
      (fun c (hc : c ∈ rest'.takeWhile isOws) => List.mem_takeWhile_imp hc)
    have hwhole : (rest.takeWhile isOws ++ ',' :: rest'.takeWhile isOws) ++ rest'.dropWhile isOws = rest := by
      rw [List.append_assoc, List.cons_append, hsplit', ← hcomma, hsplit]
    exact .inr ⟨_, _, members', hwhole.symm, hseparates, hrest, hmore⟩

theorem append_isSpace {s s' : CStr} (hs : ∀ c ∈ s, Header.isSpace c = true)
    (hs' : ∀ c ∈ s', Header.isSpace c = true) : ∀ c ∈ s ++ s', Header.isSpace c = true := by
  intro c hc
  rcases List.mem_append.mp hc with hc | hc
  · exact hs c hc
  · exact hs' c hc

/-- A list of strings is a text of the scanner's. -/
theorem list_stands {s : CStr} {members : List Member} (h : tokenList s = some members)
    (hstrings : OnlyStrings members) {gap after : CStr} (hgap : ∀ c ∈ gap, isGap c = true)
    (hafter : ∀ c ∈ after, Header.isSpace c = true) :
    ∃ raws, SkippedText raws (gap ++ (s ++ after)) ∧ List.Forall₂ RawItem.StandsFor raws members := by
  induction members generalizing s gap with
  | nil =>
    obtain ⟨_, _, -, ⟨-, hne⟩ | ⟨_, _, _, -, -, -, hne⟩⟩ := tokenList_split h <;> cases hne
  | cons member members ih =>
    obtain ⟨hfirst, hothers⟩ := List.forall_mem_cons.mp hstrings
    obtain ⟨_, rest, hmember, ⟨hblank, heq⟩ | ⟨gap', s', _, rfl, hgap', hlist, heq⟩⟩ := tokenList_split h
    · cases heq
      obtain ⟨raw, rfl, hraw⟩ := member_stands hmember hfirst
      have hend : ∀ c ∈ rest ++ after, isGap c = true :=
        fun c hc => isGap_of_isSpace (append_isSpace hblank hafter c hc)
      have hhead : ∀ c ∈ (rest ++ after).head?, isGap c = true := fun c hc => hend c (List.mem_of_mem_head? hc)
      rw [List.append_assoc]
      exact ⟨[raw], .item hgap hraw.valid (fun _ => hhead) (.blank hend), .cons hraw .nil⟩
    · cases heq
      obtain ⟨raw, rfl, hraw⟩ := member_stands hmember hfirst
      obtain ⟨raws, htext, hraws⟩ := ih hlist hothers hgap'.chars
      rw [List.append_assoc, List.append_assoc]
      exact ⟨raw :: raws, .item hgap hraw.valid (fun _ => hgap'.head _) htext, .cons hraw hraws⟩

/-- And a list with another parameter the scanner refuses. -/
theorem list_refused {s : CStr} {members : List Member} (h : tokenList s = some members)
    (hstrings : ¬ OnlyStrings members) {gap after : CStr} (hgap : ∀ c ∈ gap, isGap c = true)
    (hafter : ∀ c ∈ after, Header.isSpace c = true) {turns : Nat} (hturns : (gap ++ (s ++ after)).length ≤ turns) :
    readEntries turns (gap ++ (s ++ after)) = none := by
  induction members generalizing s gap turns with
  | nil => exact absurd (fun member hmember => absurd hmember List.not_mem_nil) hstrings
  | cons member members ih =>
    obtain ⟨_, rest, hmember, hlist⟩ := tokenList_split h
    have hpos := StructuredFields.tokenItem_length hmember
    simp only [List.length_append] at hturns
    obtain ⟨turns, rfl⟩ : ∃ n, turns = n + 1 := ⟨turns - 1, by omega⟩
    rcases hlist with ⟨hblank, heq⟩ | ⟨gap', s', _, rfl, hgap', hlist, heq⟩
    · cases heq
      have hother : ¬ ∀ p ∈ member.2, p.2.isString = true := fun hall => hstrings (by simpa [OnlyStrings] using hall)
      have hends : EndsMember (rest ++ after) := by
        rw [EndsMember, List.dropWhile_eq_nil_iff.mpr (append_isSpace hblank hafter)]
        nofun
      exact member_refused hmember hother hgap hends turns
    · cases heq
      by_cases hfirst : ∀ p ∈ member.2, p.2.isString = true
      · obtain ⟨raw, rfl, hraw⟩ := member_stands hmember hfirst
        have hothers : ¬ OnlyStrings members := fun hall => hstrings (List.forall_mem_cons.mpr ⟨hfirst, hall⟩)
        have hhead := hgap'.head (s' ++ after)
        have hsemicolon : ∀ q, gap' ++ (s' ++ after) ≠ ';' :: q := by
          intro q hq
          rw [hq] at hhead
          exact absurd (hhead ';' rfl) (by decide)
        simp only [List.length_append] at hturns hpos
        rw [List.append_assoc, List.append_assoc, readEntries_item hgap hraw.valid (fun _ => hhead) hsemicolon,
          ih hlist hothers hgap'.chars (by simp only [List.length_append]; omega), Option.map_none]
      · exact member_refused hmember hfirst hgap (by rw [List.append_assoc]; exact hgap'.ends _) turns

/-! ## Values -/

theorem trimmed_append (value : CStr) :
    ∃ before after, value = before ++ (trimmed value ++ after) ∧ (∀ c ∈ before, Header.isSpace c = true) ∧
      ∀ c ∈ after, Header.isSpace c = true := by
  have hsplit := List.takeWhile_append_dropWhile (p := Header.isSpace) (l := value)
  have hsplit' := List.rdropWhile_append_rtakeWhile (p := Header.isSpace) (l := value.dropWhile Header.isSpace)
  refine ⟨value.takeWhile Header.isSpace, (value.dropWhile Header.isSpace).rtakeWhile Header.isSpace, ?_,
    fun c => List.mem_takeWhile_imp, fun c => List.mem_rtakeWhile_imp⟩
  rw [trimmed, hsplit', hsplit]

/-- A list of strings is read; another list is refused. -/
theorem readSkipped_list {value : CStr} {members : List Member} (h : skippedList value = some members) :
    (OnlyStrings members → ∃ raws, SkippedText raws value ∧ List.Forall₂ RawItem.StandsFor raws members) ∧
      (¬ OnlyStrings members → readSkipped value = none) := by
  obtain ⟨before, after, hvalue, hbefore, hafter⟩ := trimmed_append value
  have hgap : ∀ c ∈ before, isGap c = true := fun c hc => isGap_of_isSpace (hbefore c hc)
  unfold skippedList at h
  split at h
  · rename_i hblank
    cases h
    rw [hblank, List.nil_append] at hvalue
    have hall : ∀ c ∈ value, isGap c = true := by
      rw [hvalue]
      exact fun c hc => isGap_of_isSpace (append_isSpace hbefore hafter c hc)
    have hstrings : OnlyStrings [] := fun member hmember => absurd hmember List.not_mem_nil
    exact ⟨fun _ => ⟨[], .blank hall, .nil⟩, fun hno => absurd hstrings hno⟩
  · generalize trimmed value = list at h hvalue
    subst hvalue
    exact ⟨fun hstrings => list_stands h hstrings hgap hafter,
      fun hother => list_refused h hother hgap hafter (Nat.le_refl _)⟩

/-- **When the scanner reads a value as the list that it is**: it is a list
whose parameters are all strings, and the identifiers of its entries have
nothing escaped in them; or it is no list and no text of the scanner's. -/
theorem skipped_list_iff (value : CStr) :
    (parseSessionSkipped value).assuming allocOk = pure (listEntries value) ↔
      (∀ members, skippedList value = some members →
        OnlyStrings members ∧ ∀ entry ∈ members.filterMap listEntry, Unescaped entry.sessionId) ∧
      (skippedList value = none → ∀ items, ¬ SkippedText items value) := by
  have hpure : (parseSessionSkipped value).assuming allocOk = pure (listEntries value) ↔
      readSkipped value = listEntries value := by
    rw [assuming_parseSessionSkipped]
    constructor
    · intro h
      injection h
    · intro h
      rw [h]
  rw [hpure, listEntries]
  cases hlist : skippedList value with
  | none =>
    have hread : readSkipped value = none ↔ ∀ items, ¬ SkippedText items value := by
      rw [Option.eq_none_iff_forall_ne_some]
      constructor
      · intro h items htext
        exact h _ (readSkipped_eq_some.mpr ⟨items, htext, rfl⟩)
      · intro h entries hentries
        obtain ⟨items, htext, -⟩ := readSkipped_eq_some.mp hentries
        exact h items htext
    simpa using hread
  | some members =>
    obtain ⟨hreads, hrefuses⟩ := readSkipped_list hlist
    have hcondition : readSkipped value = some (members.filterMap listEntry) ↔
        OnlyStrings members ∧ ∀ entry ∈ members.filterMap listEntry, Unescaped entry.sessionId := by
      by_cases hstrings : OnlyStrings members
      · obtain ⟨raws, htext, hraws⟩ := hreads hstrings
        have hread := readSkipped_eq_some.mpr ⟨raws, htext, rfl⟩
        rw [and_iff_right hstrings, ← kept_iff hraws, hread, Option.some.injEq]
      · rw [hrefuses hstrings]
        exact iff_of_false nofun fun h => hstrings h.1
    simpa using hcondition

/-- A parameter that is no string discards the other entries, and an empty member is taken. -/
theorem skipped_discards_list :
    ((parseSessionSkipped "unreachable;session_identifier=\"1\", x;retry=5").assuming allocOk = pure none ∧
      listEntries "unreachable;session_identifier=\"1\", x;retry=5" = some [⟨"unreachable", "1"⟩]) ∧
    (parseSessionSkipped "a,,b").assuming allocOk = pure (some []) ∧ listEntries "a,,b" = none := by
  have hsession : tokenItem "unreachable;session_identifier=\"1\", x;retry=5".toList =
      some (("unreachable".toList, [("session_identifier".toList, .string "1".toList)]), ", x;retry=5".toList) := by
    refine tokenItem_iff.mpr ⟨_, rfl, by decide, fun c hc => by cases hc; decide, ?_⟩
    exact writtenParameters_cons_iff.mpr ⟨_, _, rfl, rfl, writtenParameters_nil_iff.mpr ⟨rfl, nofun⟩⟩
  have hretry : tokenItem "x;retry=5".toList = some (("x".toList, [("retry".toList, .integer 5)]), []) := by
    refine tokenItem_iff.mpr ⟨_, rfl, by decide, fun c hc => by cases hc; decide, ?_⟩
    exact writtenParameters_cons_iff.mpr ⟨_, _, rfl, rfl, writtenParameters_nil_iff.mpr ⟨rfl, nofun⟩⟩
  have hlist := tokenList_iff.mpr
    ⟨_, _, hsession, .inr ⟨_, _, rfl, tokenList_iff.mpr ⟨_, _, hretry, .inl ⟨rfl, rfl⟩⟩, rfl⟩⟩
  have hnone : tokenList "a,,b".toList = none := by
    have ha : tokenItem "a,,b".toList = some (("a".toList, []), ",,b".toList) :=
      tokenItem_iff.mpr ⟨_, rfl, by decide, fun c hc => by cases hc; decide,
        writtenParameters_nil_iff.mpr ⟨rfl, nofun⟩⟩
    rw [Option.eq_none_iff_forall_ne_some]
    intro members hlist
    obtain ⟨member, rest, hmember, hmore⟩ := tokenList_iff.mp hlist
    cases ha.symm.trans hmember
    rcases hmore with ⟨hnil, -⟩ | ⟨rest', _, hcomma, hlist, -⟩
    · exact absurd hnil (by decide)
    · have hrest : ",b".toList = rest' := (List.cons.inj hcomma).2
      subst hrest
      obtain ⟨_, _, hmember, -⟩ := tokenList_iff.mp hlist
      exact absurd hmember nofun
  refine ⟨⟨?_, ?_⟩, ?_, ?_⟩
  · rw [assuming_parseSessionSkipped]
    rfl
  · have htrimmed : trimmed "unreachable;session_identifier=\"1\", x;retry=5" =
        "unreachable;session_identifier=\"1\", x;retry=5" := rfl
    rw [listEntries, skippedList, if_neg (by decide), htrimmed, hlist]
    rfl
  · rw [assuming_parseSessionSkipped]
    rfl
  · have htrimmed : trimmed "a,,b" = "a,,b" := rfl
    rw [listEntries, skippedList, if_neg (by decide), htrimmed, hnone]
    rfl

end OpenDbsc
