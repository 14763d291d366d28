/-
What the registration and challenge headers tell apart.

The serializers write values between quotes without escaping, so a header can
be that of several argument tuples. It is that of one exactly when what is
written has no more than one reading (`header_unambiguous_iff`): in particular
a header with two parameters never has.
-/
import OpenDbsc.Effects.Needs
import OpenDbsc.Fields.QuotedParameters
import OpenDbsc.Fields.Structured
import OpenDbsc.Header
import OpenDbsc.SkippedHeader

namespace OpenDbsc

open Effects Prog QuotedParameters

/-- There are runs of both that return the same string. -/
def SameOutput (p q : Prog Sys (Option CStr)) : Prop := ∃ tr tr' out, Trace p tr (some out) ∧ Trace q tr' (some out)

/-- The arguments of `opendbsc_registration_serialize`. -/
structure RegistrationArguments where
  algorithms : List CStr
  path : Option CStr
  challenge : Option CStr
  authorization : Option CStr
  providerKey : Option CStr
  providerSessionId : Option CStr
  providerUrl : Option CStr

namespace RegistrationArguments

def serialize (a : RegistrationArguments) : Prog Sys (Option CStr) :=
  registrationSerialize a.algorithms a.path a.challenge a.authorization a.providerKey a.providerSessionId a.providerUrl

def text (a : RegistrationArguments) : CStr :=
  registrationText a.algorithms a.path a.challenge a.authorization a.providerKey a.providerSessionId a.providerUrl

/-- The parameters in the order they are written; NULL is the empty value. -/
def params (a : RegistrationArguments) : List Parameter :=
  [("path", a.path.getD []), ("challenge", a.challenge.getD []), ("authorization", a.authorization.getD []),
    ("provider_key", a.providerKey.getD []), ("provider_session_id", a.providerSessionId.getD []),
    ("provider_url", a.providerUrl.getD [])]

/-- Algorithms that are tokens, values that are printable. -/
structure Presentable (a : RegistrationArguments) : Prop where
  algorithms : ∀ algorithm ∈ a.algorithms, algorithm ≠ [] ∧ ∀ c ∈ algorithm, isTokenChar c = true
  params : ∀ p ∈ a.params, ∀ c ∈ p.2, StructuredFields.isPrintable c = true

instance (a : RegistrationArguments) : Decidable a.Presentable :=
  decidable_of_iff ((a.algorithms.all fun algorithm => algorithm != [] && algorithm.all isTokenChar) = true ∧
      (a.params.all fun p => p.2.all StructuredFields.isPrintable) = true)
    ⟨fun h => ⟨by simpa using h.1, by simpa using h.2⟩, fun h => ⟨by simpa using h.algorithms, by simpa using h.params⟩⟩

/-- The same arguments, NULL and empty values taken for the same. -/
def Same (a b : RegistrationArguments) : Prop := a.algorithms = b.algorithms ∧ a.params = b.params

/-- The header that is written is that of no other arguments. -/
def Unambiguous (a : RegistrationArguments) : Prop := ∀ b, b.Presentable → SameOutput a.serialize b.serialize → a.Same b

/-- No value has a double quote in it. -/
def QuoteFree (a : RegistrationArguments) : Prop := ∀ p ∈ a.params, '"' ∉ p.2

end RegistrationArguments

/-- The same for `opendbsc_challenge_serialize`. -/
def ChallengeUnambiguous (value : CStr) (sessionId : Option CStr) : Prop :=
  ∀ value' sessionId', SameOutput (challengeSerialize (some value) sessionId)
    (challengeSerialize (some value') sessionId') →
    value = value' ∧ sessionId.getD [] = sessionId'.getD []

/-- The value is the end of one and a session identifier. -/
def ImitatesId (value : CStr) : Prop := ∃ before after, after ≠ [] ∧ value = before ++ '"' :: (opening "id" ++ after)

/-! ## What is written -/

theorem tries_joinStrings (strings : List CStr) (sep : Char) :
    Tries (joinStrings strings sep) ([sep].intercalate strings) := by
  unfold joinStrings
  split
  · rename_i h
    rw [List.eq_nil_of_length_eq_zero h]
    exact tries_perform (S := Sys) (SysOp.malloc 1) id []
  · exact tries_perform (S := Sys) (SysOp.malloc _) id _

theorem quotedParam_eq (name : CStr) (value : Option CStr) : quotedParam name value = piece (name, value.getD []) := by
  cases value with
  | none => rfl
  | some value =>
    by_cases h : value = []
    · simp [quotedParam, piece, h]
    · simp [quotedParam, piece, opening, h]

theorem tries_serialize (a : RegistrationArguments) : Tries a.serialize a.text := by
  refine (tries_joinStrings a.algorithms ' ').bind ?_ rfl
  have hpieces : a.text = ["(" ++ [' '].intercalate a.algorithms ++ ")", quotedParam "path" a.path,
      quotedParam "challenge" a.challenge, quotedParam "authorization" a.authorization,
      quotedParam "provider_key" a.providerKey, quotedParam "provider_session_id" a.providerSessionId,
      quotedParam "provider_url" a.providerUrl].flatten := by
    simp [RegistrationArguments.text, registrationText]
  rw [hpieces]
  exact tries_perform (S := Sys) (SysOp.malloc _) id _

theorem tries_challengeSerialize (value : CStr) (sessionId : Option CStr) :
    Tries (challengeSerialize (some value) sessionId) (challengeText value sessionId) := by
  have hpieces : challengeText value sessionId = ["\"" ++ value ++ "\"", quotedParam "id" sessionId].flatten := by
    simp [challengeText]
  rw [hpieces]
  exact tries_perform (S := Sys) (SysOp.malloc _) id _

/-- Two programs that try to return a string, and do so with enough memory. -/
theorem sameOutput_iff {p q : Prog Sys (Option CStr)} {x y : CStr} (hp : Tries p x) (hq : Tries q y)
    (hp' : p.assuming allocOk = pure (some x)) (hq' : q.assuming allocOk = pure (some y)) : SameOutput p q ↔ x = y := by
  constructor
  · intro ⟨tr, tr', out, htr, htr'⟩
    have hx := (hp tr _ htr).resolve_right (Option.some_ne_none _)
    have hy := (hq tr' _ htr').resolve_right (Option.some_ne_none _)
    exact Option.some.inj (hx.symm.trans hy)
  · intro h
    obtain ⟨tr, htr, -⟩ := Trace.of_assuming (hp' ▸ Trace.ret : Trace (p.assuming allocOk) [] (some x))
    obtain ⟨tr', htr', -⟩ := Trace.of_assuming (hq' ▸ Trace.ret : Trace (q.assuming allocOk) [] (some y))
    exact ⟨tr, tr', x, htr, h ▸ htr'⟩

theorem sameHeader_iff {a b : RegistrationArguments} : SameOutput a.serialize b.serialize ↔ a.text = b.text :=
  sameOutput_iff (tries_serialize a) (tries_serialize b) (assuming_registrationSerialize ..)
    (assuming_registrationSerialize ..)

theorem sameChallenge_iff {value value' : CStr} {sessionId sessionId' : Option CStr} :
    SameOutput (challengeSerialize (some value) sessionId) (challengeSerialize (some value') sessionId') ↔
      challengeText value sessionId = challengeText value' sessionId' :=
  sameOutput_iff (tries_challengeSerialize _ _) (tries_challengeSerialize _ _) (assuming_challengeSerialize ..)
    (assuming_challengeSerialize ..)

/-! ## The registration header -/

theorem join_cons (x y : CStr) (xs : List CStr) :
    [' '].intercalate (x :: y :: xs) = x ++ ' ' :: [' '].intercalate (y :: xs) := by
  simp [List.intercalate_cons_cons]

theorem not_mem_join {d : Char} {strings : List CStr} (hsep : d ≠ ' ') (h : ∀ s ∈ strings, d ∉ s) :
    d ∉ [' '].intercalate strings := by
  induction strings with
  | nil => simp
  | cons x strings ih =>
    rw [List.forall_mem_cons] at h
    cases strings with
    | nil => simpa using h.1
    | cons y strings =>
      rw [join_cons, List.mem_append, List.mem_cons]
      simp [h.1, hsep, ih h.2]

/-- Tokens are told apart by the spaces between them. -/
theorem join_injective {xs ys : List CStr} (hxs : ∀ x ∈ xs, x ≠ [] ∧ ' ' ∉ x) (hys : ∀ y ∈ ys, y ≠ [] ∧ ' ' ∉ y)
    (h : [' '].intercalate xs = [' '].intercalate ys) : xs = ys := by
  have hempty : ∀ {zs : List CStr}, (∀ z ∈ zs, z ≠ [] ∧ ' ' ∉ z) → [' '].intercalate zs = [] → zs = [] := by
    intro zs hzs hjoin
    match zs with
    | [] => rfl
    | [z] => exact absurd (by simpa using hjoin) (hzs z (by simp)).1
    | z :: y :: zs => simp at hjoin
  by_cases hx : xs = []
  · subst hx
    exact (hempty hys h.symm).symm
  · have hy : ys ≠ [] := fun hy => hx (hempty hxs (by rw [h, hy]; rfl))
    rw [← List.splitOn_intercalate ' ' (fun x hmem => (hxs x hmem).2) hx, h,
      List.splitOn_intercalate ' ' (fun y hmem => (hys y hmem).2) hy]

theorem text_eq (a : RegistrationArguments) :
    a.text = '(' :: ([' '].intercalate a.algorithms ++ ')' :: QuotedParameters.text a.params) := by
  simp [RegistrationArguments.text, registrationText, quotedParam_eq, RegistrationArguments.params]

def parameterNames : List CStr :=
  ["path", "challenge", "authorization", "provider_key", "provider_session_id", "provider_url"]

theorem params_names (a : RegistrationArguments) : a.params.map Prod.fst = parameterNames := rfl

theorem distinct_parameterNames : Distinct parameterNames := ⟨by decide, by decide⟩

theorem printable_openings :
    ∀ name ∈ parameterNames, ∀ c ∈ '"' :: opening name, StructuredFields.isPrintable c = true := by
  have hall :
    parameterNames.all (fun name => ('"' :: opening name).all StructuredFields.isPrintable) = true := by decide
  exact fun name hname => List.all_eq_true.mp (List.all_eq_true.mp hall name hname)

/-- Any values can be those of the six parameters. -/
theorem exists_params (algorithms : List CStr) {qs : List Parameter} (h : qs.map Prod.fst = parameterNames) :
    ∃ b : RegistrationArguments, b.algorithms = algorithms ∧ b.params = qs := by
  match qs, h with
  | [(_, v₁), (_, v₂), (_, v₃), (_, v₄), (_, v₅), (_, v₆)], h =>
    simp only [List.map_cons, List.map_nil, parameterNames, List.cons.injEq, and_true] at h
    obtain ⟨rfl, rfl, rfl, rfl, rfl, rfl⟩ := h
    exact ⟨⟨algorithms, some v₁, some v₂, some v₃, some v₄, some v₅, some v₆⟩, rfl, rfl⟩

theorem RegistrationArguments.Presentable.notMem {a : RegistrationArguments} (ha : a.Presentable) {d : Char}
    (hd : isTokenChar d = false) : ∀ s ∈ a.algorithms, d ∉ s := fun s hs hmem => by
  rw [(ha.algorithms s hs).2 d hmem] at hd
  cases hd

/-- The list of algorithms ends at its parenthesis. -/
theorem text_split {a b : RegistrationArguments} (ha : a.Presentable) (hb : b.Presentable) :
    a.text = b.text ↔ a.algorithms = b.algorithms ∧
      QuotedParameters.text a.params = QuotedParameters.text b.params := by
  rw [text_eq, text_eq]
  constructor
  · intro h
    have hclose : ∀ {c : RegistrationArguments}, c.Presentable → ')' ∉ [' '].intercalate c.algorithms := fun hc =>
      not_mem_join (by decide) (hc.notMem (by decide))
    obtain ⟨hjoin, htext⟩ := cut_inj (hclose ha) (hclose hb) (List.cons.inj h).2
    have htokens : ∀ {c : RegistrationArguments}, c.Presentable → ∀ s ∈ c.algorithms, s ≠ [] ∧ ' ' ∉ s := fun hc s hs =>
      ⟨(hc.algorithms s hs).1, hc.notMem (by decide) s hs⟩
    exact ⟨join_injective (htokens ha) (htokens hb) hjoin, htext⟩
  · intro ⟨halgorithms, htext⟩
    rw [halgorithms, htext]

theorem registration_unambiguous_iff {a : RegistrationArguments} (ha : a.Presentable) :
    a.Unambiguous ↔ OnlyReading a.params := by
  have hok : ∀ p ∈ a.params, ∀ c, c ∈ p.2 ∨ c ∈ '"' :: opening p.1 → StructuredFields.isPrintable c = true := by
    intro p hp c hc
    rcases hc with hc | hc
    · exact ha.params p hp c hc
    · exact printable_openings p.1 (params_names a ▸ List.mem_map_of_mem hp) c hc
  rw [onlyReading_iff (params_names a ▸ distinct_parameterNames) hok]
  constructor
  · intro h qs hnames hqs htext
    obtain ⟨b, halgorithms, rfl⟩ := exists_params a.algorithms hnames
    have hb : b.Presentable := ⟨halgorithms ▸ ha.algorithms, hqs⟩
    exact (h b hb (sameHeader_iff.mpr ((text_split ha hb).mpr ⟨halgorithms.symm, htext⟩))).2
  · intro h b hb hsame
    obtain ⟨halgorithms, htext⟩ := (text_split ha hb).mp (sameHeader_iff.mp hsame)
    exact ⟨halgorithms, h b.params rfl hb.params htext⟩

/-! ## The challenge header -/

theorem challengeText_eq (value : CStr) (sessionId : Option CStr) :
    challengeText value sessionId = '"' :: (value ++ '"' :: piece ("id", sessionId.getD [])) := by
  simp [challengeText, quotedParam_eq]

theorem challenge_unambiguous_iff {value : CStr} {sessionId : Option CStr} :
    ChallengeUnambiguous value sessionId ↔ sessionId.getD [] = [] ∧ ¬ ImitatesId value := by
  simp only [ChallengeUnambiguous, sameChallenge_iff, challengeText_eq, List.cons.injEq, true_and]
  constructor
  · intro h
    have hid : sessionId.getD [] = [] := by
      refine not_not.mp fun hpresent => ?_
      have hother := h (value ++ '"' :: (opening "id" ++ sessionId.getD [])) none (by
        rw [piece_present hpresent, Option.getD_none, piece_absent rfl]
        simp)
      simpa using hother.1
    refine ⟨hid, fun ⟨before, after, hafter, hvalue⟩ => ?_⟩
    have hother := h before (some after) (by
      rw [hid, piece_absent rfl, Option.getD_some, piece_present hafter, hvalue]
      simp)
    exact hafter (hother.2.symm.trans hid)
  · intro ⟨hid, hvalue⟩ value' sessionId' htext
    rw [hid, piece_absent rfl] at htext
    by_cases hid' : sessionId'.getD [] = []
    · rw [hid', piece_absent rfl] at htext
      exact ⟨List.append_cancel_right htext, hid.trans hid'.symm⟩
    · rw [piece_present hid'] at htext
      exact absurd ⟨value', sessionId'.getD [], hid', List.append_cancel_right (htext.trans (by simp))⟩ hvalue

/-- **What the headers tell apart.** A header is that of no other arguments
exactly when it has one reading; arguments without double quotes are always
told apart. -/
theorem header_unambiguous_iff {a : RegistrationArguments} (ha : a.Presentable) (value : CStr) (sessionId : Option CStr) :
    (a.Unambiguous ↔ OnlyReading a.params) ∧
    (ChallengeUnambiguous value sessionId ↔ sessionId.getD [] = [] ∧ ¬ ImitatesId value) ∧
    ∀ b : RegistrationArguments, b.Presentable → a.QuoteFree → b.QuoteFree → SameOutput a.serialize b.serialize → a.Same b := by
  refine ⟨registration_unambiguous_iff ha, challenge_unambiguous_iff, fun b hb hqa hqb hsame => ?_⟩
  obtain ⟨halgorithms, htext⟩ := (text_split ha hb).mp (sameHeader_iff.mp hsame)
  exact ⟨halgorithms, text_injective (params_names a ▸ distinct_parameterNames) rfl hqa hqb htext⟩

/-- A path, and nothing else. -/
def pathOnly (path : CStr) : RegistrationArguments := ⟨["ES256"], some path, none, none, none, none, none⟩

theorem header_unambiguous_path : (pathOnly "/register").Unambiguous := by
  refine (header_unambiguous_iff (by decide) "nonce" none).1.mpr ?_
  refine (iff_of_eq (if_neg (by decide))).mpr fun q hq => ⟨?_, ?_⟩
  · revert q
    decide
  · intro ⟨before, after, _, _, hvalue⟩
    have hquote : '"' ∈ "/register".toList := by
      rw [show "/register".toList = before ++ '"' :: (opening q.1 ++ after) from hvalue]
      simp
    exact absurd hquote (by decide)

/-- A path that reads as a path and a challenge, and a challenge that reads as one with a session. -/
theorem header_read_as_another :
    (∃ a b : RegistrationArguments, a.Presentable ∧ b.Presentable ∧ SameOutput a.serialize b.serialize ∧ ¬ a.Same b) ∧
    ∃ value value' sessionId', SameOutput (challengeSerialize (some value) none) (challengeSerialize (some value') sessionId') ∧
      ¬ (value = value' ∧ [] = sessionId'.getD []) := by
  refine ⟨⟨pathOnly "a\";challenge=\"b", { pathOnly "a" with challenge := some "b" }, by decide, by decide,
    sameHeader_iff.mpr (by decide), ?_⟩, "a\";id=\"b", "a", some "b", sameChallenge_iff.mpr (by decide), ?_⟩
  · intro h
    exact absurd h.2 (by decide)
  · decide

end OpenDbsc
