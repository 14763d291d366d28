/-
When the serializers fill their blocks exactly: `join_strings` first, then for
each serializer the list of texts that both of its passes go over, and how
long these are (`serializers_exact_iff`).

What is read back from a block is what the serializers of `Header`,
`SkippedRoundTrip` and `Manager` return.
-/
import Mathlib.Algebra.Order.BigOperators.Group.List
import Mathlib.Algebra.Ring.Int.Defs
import OpenDbsc.TwoPass

namespace OpenDbsc

open Effects Prog Records

namespace TwoPass

/-! ## `join_strings` -/

/-- The bytes in the order they are copied. -/
def joined (sep : Char) (strings : List CString) : CStr := [sep].intercalate (strings.map (·.bytes))

theorem joined_cons (sep : Char) (s : CString) (rest : List CString) :
    joined sep (s :: rest) = s.bytes ++ if rest ≠ [] then [sep] ++ joined sep rest else [] := by
  cases rest with
  | nil => simp [joined]
  | cons s' rest => simp [joined]

theorem length_joined (sep : Char) (strings : List CString) :
    (joined sep strings).length = (strings.map (·.bytes.length)).sum + (strings.length - 1) := by
  induction strings with
  | nil => simp [joined]
  | cons s rest ih =>
    rw [joined_cons]
    cases rest with
    | nil => simp
    | cons s' rest =>
      rw [if_pos (by simp), List.length_append, List.length_append, ih]
      simp
      omega

theorem noNul_joined {sep : Char} (hsep : sep ≠ '\x00') (strings : List CString) : '\x00' ∉ joined sep strings := by
  induction strings with
  | nil => simp [joined]
  | cons s rest ih =>
    rw [joined_cons]
    split
    · simp [s.noNul, hsep.symm, ih]
    · simp [s.noNul]

theorem memcpy_append (c : Cursor) (text text' : CStr) :
    c.memcpy (text ++ text') = c.memcpy text >>= fun c => c.memcpy text' := by
  unfold Cursor.memcpy
  rw [Block.storeAll_append]
  cases c.out.storeAll c.w text with
  | none => exact (undefined_bind _).symm
  | some out => simp [Nat.add_assoc]

theorem copyStrings_eq (sep : Char) (strings : List CString) (c : Cursor) :
    copyStrings sep strings c = c.memcpy (joined sep strings) := by
  induction strings generalizing c with
  | nil => rfl
  | cons s rest ih =>
    rw [joined_cons, memcpy_append, copyStrings]
    congr 1
    funext c'
    split
    · rw [memcpy_append]
      simp only [ih]
    · rename_i hrest
      obtain rfl := not_not.mp hrest
      rfl

theorem stringAt_starts {b : Block Char} {text : CStr} (h : b.Starts (text ++ ['\x00'])) (hnul : '\x00' ∉ text) :
    stringAt b = pure text := by
  obtain ⟨rest, rfl⟩ := h
  induction text with
  | nil => simp [stringAt]
  | cons c text ih =>
    have hc : c ≠ '\x00' := fun hc => hnul (by simp [hc])
    have htext : '\x00' ∉ text := fun hmem => hnul (List.mem_cons_of_mem c hmem)
    have hrest := ih htext
    simp only [List.cons_append, List.map_cons, stringAt, if_neg hc, hrest]
    rfl

/-- The block `join_strings` returns. -/
theorem joinStrings_fits {sep : Char} {strings : List CString} (h : (joined sep strings).length + 1 < 2 ^ 64) :
    ∃ b, joinStrings strings sep =
        malloc ((joined sep strings).length + 1) >>= (fun ok => pure (if ok then some b else none)) ∧
      b.Starts (joined sep strings ++ ['\x00']) := by
  obtain ⟨c, hcopy, hwrote, hlen⟩ := (Cursor.wrote_fresh ((joined sep strings).length + 1)).memcpy
    (joined sep strings) (by simp)
  rw [List.nil_append] at hwrote
  obtain ⟨c', hend, hwrote', -, hnul⟩ := hwrote.terminate (by rw [hlen]; simp)
  refine ⟨c'.out, ?_, hwrote'.starts.snoc (by rw [← hwrote'.w]; exact hnul)⟩
  have htotal : joinTotal strings = (joined sep strings).length := by
    unfold joinTotal
    rw [← length_joined sep strings]
    split
    · rename_i hnil
      simp [hnil, joined]
    · exact Nat.mod_eq_of_lt (by omega)
  unfold joinStrings
  simp only [htotal, Nat.mod_eq_of_lt h]
  refine malloc_bind_congr ?_ rfl
  simp only [Bool.not_true, Bool.false_eq_true, if_false, copyStrings_eq, hcopy, pure_bind, hend, if_true]

/-- A length that wraps leaves no room for the strings. -/
theorem joinStrings_overflow (sep : Char) {strings : List CString} (h : 2 ^ 64 ≤ (joined sep strings).length + 1) :
    ∃ size, joinStrings strings sep = malloc size >>= fun ok => if ok then undefinedBehavior else pure none := by
  unfold joinStrings
  have hlt : (joinTotal strings + 1) % 2 ^ 64 < 2 ^ 64 := Nat.mod_lt _ (by decide)
  generalize (joinTotal strings + 1) % 2 ^ 64 = size at hlt
  refine ⟨size, ?_⟩
  dsimp only
  refine malloc_bind_congr ?_ rfl
  have hfresh := Cursor.wrote_fresh size
  simp only [Bool.not_true, Bool.false_eq_true, if_false, copyStrings_eq, if_true]
  by_cases hcopy : (joined sep strings).length ≤ size
  · obtain ⟨c, hmemcpy, hwrote, hlen⟩ := hfresh.memcpy (joined sep strings) (by simpa using hcopy)
    rw [hmemcpy, pure_bind, hwrote.terminate_overflow (by rw [hlen]; simp; omega), undefined_bind]
  · rw [hfresh.memcpy_overflow (by simp; omega), undefined_bind]

/-! ## The serializers -/

/-- The text of a parameter, if it is written. -/
def paramTexts (name : CStr) : Option CStr → List CStr
  | none => []
  | some value => if value ≠ [] then [";" ++ name ++ "=\"" ++ value ++ "\""] else []

theorem flatten_paramTexts (name : CStr) (value : Option CStr) :
    (paramTexts name value).flatten = quotedParam name value := by
  cases value with
  | none => rfl
  | some value => by_cases h : value = [] <;> simp [paramTexts, quotedParam, h]

theorem measured_singleton (n : Int) (text : CStr) : measured n [text] = measure n text := by
  rw [measured_cons]
  exact bind_pure _

theorem writeTexts_singleton (text : CStr) (c : Cursor) : writeTexts [text] c = c.sprintf text := bind_pure _

theorem measured_ite (n : Int) (p : Prop) [Decidable p] (text : CStr) :
    measured n (if p then [text] else []) = if p then measure n text else pure n := by
  split
  · exact measured_singleton n text
  · rfl

theorem writeTexts_ite (p : Prop) [Decidable p] (text : CStr) (c : Cursor) :
    writeTexts (if p then [text] else []) c = if p then c.sprintf text else pure c := by
  split
  · exact writeTexts_singleton text c
  · rfl

theorem measureParam_eq (n : Int) (name : CStr) (value : Option CStr) :
    measureParam n name value = measured n (paramTexts name value) := by
  cases value with
  | none => rfl
  | some value => exact (measured_ite ..).symm

theorem sprintfParam_eq (name : CStr) (value : Option CStr) (c : Cursor) :
    c.sprintfParam name value = writeTexts (paramTexts name value) c := by
  cases value with
  | none => rfl
  | some value => exact (writeTexts_ite ..).symm

def registrationTexts (algs : CStr) (params : RegistrationParams) : List CStr :=
  ["(" ++ algs ++ ")"] ++ (paramTexts "path" params.path ++ (paramTexts "challenge" params.challenge ++
    (paramTexts "authorization" params.authorization ++ (paramTexts "provider_key" params.providerKey ++
      (paramTexts "provider_session_id" params.providerSessionId ++ paramTexts "provider_url" params.providerUrl)))))

theorem registrationMeasure_eq (algs : CStr) (params : RegistrationParams) :
    registrationMeasure algs params = measured 0 (registrationTexts algs params) := by
  simp only [registrationMeasure, registrationTexts, measured_append, measured_singleton, measureParam_eq]

theorem registrationWrite_eq (algs : CStr) (params : RegistrationParams) :
    registrationWrite algs params = writeTexts (registrationTexts algs params) := by
  funext c
  simp only [registrationWrite, registrationTexts, writeTexts_append, writeTexts_singleton, sprintfParam_eq]

/-- As long as the joined algorithms do not wrap around, and that takes 2^64 bytes. -/
theorem registrationSerialize_eq {strings : List CString} (h : (joined ' ' strings).length + 1 < 2 ^ 64)
    (params : RegistrationParams) :
    registrationSerialize (some strings) params = malloc ((joined ' ' strings).length + 1) >>= fun ok =>
      if ok then
        serialize (measured 0 (registrationTexts (joined ' ' strings) params))
          (writeTexts (registrationTexts (joined ' ' strings) params))
      else pure none := by
  obtain ⟨b, hjoined, hstarts⟩ := joinStrings_fits h
  have halgs := stringAt_starts hstarts (noNul_joined (by decide) strings)
  rw [registrationSerialize, hjoined, bind_assoc]
  refine malloc_bind_congr ?_ rfl
  simp only [if_true, pure_bind, halgs, registrationMeasure_eq, registrationWrite_eq]

def challengeTexts (value : CStr) (sessionId : Option CStr) : List CStr :=
  ["\"" ++ value ++ "\""] ++ paramTexts "id" sessionId

theorem challengeSerialize_eq (value : CStr) (sessionId : Option CStr) :
    challengeSerialize (some value) sessionId =
      serialize (measured 0 (challengeTexts value sessionId)) (writeTexts (challengeTexts value sessionId)) := by
  rw [challengeSerialize]
  congr 1
  · simp only [challengeTexts, measured_append, measured_singleton, measureParam_eq]
  · funext c
    simp only [challengeTexts, writeTexts_append, writeTexts_singleton, sprintfParam_eq]

theorem skippedMeasure_eq (entries : List SkippedArgument) (n : Int) :
    skippedMeasure entries n = measured n (skippedTexts entries) := by
  have hcomma : ∀ n, measure n ", " = addInt n 2 := fun _ => rfl
  induction entries generalizing n with
  | nil => rfl
  | cons entry rest ih =>
    simp only [skippedMeasure, skippedTexts, measured_append, measured_singleton, measured_ite, hcomma, ih,
      bind_assoc]
    congr 1
    funext n
    by_cases hsid : entry.sid = [] <;> by_cases hrest : rest = [] <;> simp [hsid, hrest]

theorem skippedWrite_eq (entries : List SkippedArgument) :
    skippedWrite entries = writeTexts (skippedTexts entries) := by
  funext c
  induction entries generalizing c with
  | nil => rfl
  | cons entry rest ih =>
    simp only [skippedWrite, skippedTexts, writeTexts_append, writeTexts_singleton, writeTexts_ite, ih, bind_assoc]
    congr 1
    funext c
    by_cases hsid : entry.sid = [] <;> by_cases hrest : rest = [] <;> simp [hsid, hrest]

def setCookieTexts (cfg : ManagerConfig) (value : Option CStr) (maxAge : Int) : List CStr :=
  [setCookieStart cfg value maxAge] ++
    (((nonEmpty cfg.cookieDomain).map fun domain => "; Domain=".toList ++ domain).toList ++
      ((nonEmpty cfg.sameSite).map fun sameSite => "; SameSite=".toList ++ sameSite).toList)

theorem flatten_setCookieTexts (cfg : ManagerConfig) (value : Option CStr) (maxAge : Int) :
    (setCookieTexts cfg value maxAge).flatten = setCookieText cfg value maxAge := by
  show _ = setCookieStart cfg value maxAge ++ optional "; Domain=" cfg.cookieDomain ++
    optional "; SameSite=" cfg.sameSite
  unfold setCookieTexts optional
  cases nonEmpty cfg.cookieDomain <;> cases nonEmpty cfg.sameSite <;>
    simp only [Option.map_none, Option.map_some, Option.toList_none, Option.toList_some, List.flatten_append,
      List.flatten_cons, List.flatten_nil, List.append_nil, List.nil_append, List.append_assoc]

theorem setCookieWrite_eq (cfg : ManagerConfig) (value : Option CStr) (maxAge : Int) :
    setCookieWrite cfg value maxAge = writeTexts (setCookieTexts cfg value maxAge) := by
  funext c
  unfold setCookieWrite setCookieTexts
  simp only [writeTexts_append, writeTexts_singleton]
  congr 1
  funext c
  cases nonEmpty cfg.cookieDomain <;> cases nonEmpty cfg.sameSite <;>
    simp [writeTexts_singleton, writeTexts]

/-- `n +=` for each. -/
def addInts : Int → List Int → Prog Sys Int
  | n, [] => pure n
  | n, m :: ms => do
    let n ← addInt n m
    addInts n ms

theorem addInts_fits {n : Int} {ms : List Int} (hn : 0 ≤ n) (hms : ∀ m ∈ ms, 0 ≤ m) (h : n + ms.sum ≤ intMax) :
    addInts n ms = pure (n + ms.sum) := by
  induction ms generalizing n with
  | nil => simp [addInts]
  | cons m ms ih =>
    have hm := hms m List.mem_cons_self
    have hrest := fun m' hm' => hms m' (List.mem_cons_of_mem m hm')
    have hsum : 0 ≤ ms.sum := List.sum_nonneg hrest
    rw [List.sum_cons] at h ⊢
    rw [addInts, addInt, if_neg (by omega), pure_bind, ih (by omega) hrest (by omega), Int.add_assoc]

theorem addInts_cases {n : Int} (hn : n ≤ intMax) (ms : List Int) :
    addInts n ms = undefinedBehavior ∨ (addInts n ms = pure (n + ms.sum) ∧ n + ms.sum ≤ intMax) := by
  induction ms generalizing n with
  | nil => exact .inr (by simpa [addInts] using hn)
  | cons m ms ih =>
    rw [addInts, addInt, List.sum_cons, ← Int.add_assoc]
    split
    · exact .inl (undefined_bind _)
    · rw [pure_bind]
      exact ih (by omega)

def setCookieLengths (cfg : ManagerConfig) (value : Option CStr) (maxAge : Int) : List Int :=
  [snprintfLength (setCookieStart cfg value maxAge ++
    (if (nonEmpty cfg.sameSite).isSome then ("; SameSite=" : CStr) else []))] ++
    ((nonEmpty cfg.sameSite).map fun sameSite => intOfSize sameSite.length).toList ++
    ((nonEmpty cfg.cookieDomain).map fun domain => snprintfLength ("; Domain=".toList ++ domain)).toList

theorem setCookieMeasure_eq (cfg : ManagerConfig) (value : Option CStr) (maxAge : Int) :
    setCookieMeasure cfg value maxAge = addInts 0 (setCookieLengths cfg value maxAge) := by
  unfold setCookieMeasure setCookieLengths
  cases nonEmpty cfg.sameSite <;> cases nonEmpty cfg.cookieDomain <;> simp [addInts, measure]

theorem intOfSize_of_le {size : Nat} (h : size ≤ intMax) : intOfSize size = size := by
  have hmax : intMax = 2147483647 := rfl
  unfold intOfSize
  rw [Int.bmod_eq_of_le] <;> omega

theorem snprintfLength_of_le {text : CStr} (h : text.length ≤ intMax) : snprintfLength text = text.length := if_pos h

theorem snprintfLength_ge (text : CStr) : -1 ≤ snprintfLength text := by
  unfold snprintfLength
  split <;> omega

/-- The parts as they are measured add up to the texts as they are written. -/
theorem sum_setCookieLengths {cfg : ManagerConfig} {value : Option CStr} {maxAge : Int}
    (h : (setCookieTexts cfg value maxAge).flatten.length ≤ intMax) :
    (∀ m ∈ setCookieLengths cfg value maxAge, 0 ≤ m) ∧
      (setCookieLengths cfg value maxAge).sum = (setCookieTexts cfg value maxAge).flatten.length := by
  unfold setCookieLengths
  unfold setCookieTexts at h ⊢
  generalize setCookieStart cfg value maxAge = start at h ⊢
  generalize "; Domain=".toList = label at h ⊢
  generalize "; SameSite=".toList = label' at h ⊢
  generalize nonEmpty cfg.sameSite = sameSite at h ⊢
  generalize nonEmpty cfg.cookieDomain = domain at h ⊢
  cases sameSite with
  | none =>
    cases domain with
    | none =>
      simp at h ⊢
      simp [snprintfLength_of_le h]
    | some domain =>
      simp at h ⊢
      rw [snprintfLength_of_le (by omega), snprintfLength_of_le (by simp; omega)]
      simp
      omega
  | some sameSite =>
    cases domain with
    | none =>
      simp at h
      simp only [Option.isSome_some, if_true, Option.map_some, Option.toList_some, Option.map_none,
        Option.toList_none]
      rw [snprintfLength_of_le (by simp; omega), intOfSize_of_le (by omega)]
      simp
      omega
    | some domain =>
      simp at h
      simp only [Option.isSome_some, if_true, Option.map_some, Option.toList_some]
      rw [snprintfLength_of_le (by simp; omega), snprintfLength_of_le (by simp; omega), intOfSize_of_le (by omega)]
      simp
      omega

/-- A sum that does not overflow is not less than -1, if the texts have lengths that are `int`s. -/
theorem sum_setCookieLengths_ge {cfg : ManagerConfig} {value : Option CStr} {maxAge : Int}
    (h : ∀ text ∈ setCookieTexts cfg value maxAge, text.length ≤ intMax) :
    -1 ≤ (setCookieLengths cfg value maxAge).sum := by
  unfold setCookieLengths
  unfold setCookieTexts at h
  generalize setCookieStart cfg value maxAge = start at h ⊢
  generalize "; Domain=".toList = label at h ⊢
  generalize "; SameSite=".toList = label' at h ⊢
  have hstart := snprintfLength_ge (start ++ if (nonEmpty cfg.sameSite).isSome then label' else [])
  generalize snprintfLength (start ++ if (nonEmpty cfg.sameSite).isSome then label' else []) = n at hstart ⊢
  have hsameSite : 0 ≤ ((nonEmpty cfg.sameSite).map fun sameSite => intOfSize sameSite.length).toList.sum := by
    cases hsite : nonEmpty cfg.sameSite with
    | none => simp
    | some sameSite =>
      have hlen := h (label' ++ sameSite) (by simp [hsite])
      rw [List.length_append] at hlen
      rw [Option.map_some, Option.toList_some, List.sum_singleton, intOfSize_of_le (by omega)]
      omega
  have hdomain : 0 ≤ ((nonEmpty cfg.cookieDomain).map fun domain => snprintfLength (label ++ domain)).toList.sum := by
    cases hdom : nonEmpty cfg.cookieDomain with
    | none => simp
    | some domain =>
      have hlen := h (label ++ domain) (by simp [hdom])
      rw [Option.map_some, Option.toList_some, List.sum_singleton, snprintfLength_of_le hlen]
      omega
  rw [List.sum_append, List.sum_append, List.sum_singleton]
  omega

theorem measures_setCookie (cfg : ManagerConfig) (value : Option CStr) (maxAge : Int) :
    Measures (setCookieMeasure cfg value maxAge) (setCookieTexts cfg value maxAge) := by
  rw [setCookieMeasure_eq]
  refine ⟨fun hfits => ?_, fun hlong => ?_⟩
  · obtain ⟨hpos, hsum⟩ := sum_setCookieLengths hfits
    rw [addInts_fits (Int.le_refl 0) hpos (by rw [hsum]; omega), hsum, Int.zero_add]
  · obtain hadd | ⟨hadd, hle⟩ := addInts_cases (Int.natCast_nonneg intMax) (setCookieLengths cfg value maxAge)
    · exact .inl hadd
    · refine .inr ⟨_, hadd, hle, fun htexts => ?_⟩
      rw [Int.zero_add]
      exact sum_setCookieLengths_ge htexts

/-! ## The strings they return -/

/-- The string at a serializer's result. -/
def text : Option Serialized → Prog Sys (Option CStr)
  | none => pure none
  | some r => some <$> stringAt r.out

/-- `serializeTexts` is the two passes and the string that they leave. -/
theorem serialize_text {texts : List CStr} (hnul : '\x00' ∉ texts.flatten) :
    serialize (measured 0 texts) (writeTexts texts) >>= text = serializeTexts texts := by
  rw [TwoPass.serialize, serializeTexts, bind_assoc]
  congr 1
  funext n
  dsimp only
  rw [bind_assoc]
  refine malloc_bind_congr ?_ rfl
  have hfresh := Cursor.wrote_fresh ((n + 1) % 2 ^ 64).toNat
  generalize ((n + 1) % 2 ^ 64).toNat = size at hfresh ⊢
  simp only [Bool.not_true, Bool.false_eq_true, if_false]
  by_cases hne : texts = []
  · subst hne
    have hunwritten : stringAt (Block.fresh size) = undefinedBehavior := by
      cases size <;> rfl
    rw [writeTexts, pure_bind, pure_bind, text, hunwritten, map_eq_pure_bind, undefined_bind, if_pos (by simp)]
  by_cases hint : ∀ t ∈ texts, t.length ≤ intMax
  · by_cases hroom : texts.flatten.length < size
    · obtain ⟨c, hwrite, hwrote, hlen, hnul'⟩ := hfresh.texts hne hint (by simpa using hroom)
      rw [List.nil_append] at hwrote
      rw [hwrote.w] at hnul'
      rw [hwrite, pure_bind, pure_bind, text, stringAt_starts (hwrote.starts.snoc hnul') hnul, if_neg]
      · rfl
      · simp only [Bool.or_eq_true, decide_eq_true_eq, List.any_eq_true, not_or, not_exists, not_and, not_le]
        exact ⟨⟨hne, fun t ht => Nat.not_lt.mpr (hint t ht)⟩, hroom⟩
    · rw [hfresh.texts_overflow hne (by simpa using hroom), if_pos]
      · rw [undefined_bind, undefined_bind]
      · simp only [Bool.or_eq_true, decide_eq_true_eq]
        exact .inr (Nat.not_lt.mp hroom)
  · have hlong : ∃ t ∈ texts, intMax < t.length := by simpa using hint
    rw [Cursor.writeTexts_long hlong, if_pos]
    · rw [undefined_bind, undefined_bind]
    · simpa using .inl (.inr hlong)

/-! ## In which cases they fill their blocks -/

/-- How long the text of a parameter is. -/
def paramSize (name : CStr) : Option CStr → Nat
  | none => 0
  | some value => if value ≠ [] then name.length + value.length + 4 else 0

def registrationSize (algorithms : List CString) (params : RegistrationParams) : Nat :=
  (algorithms.map (·.bytes.length)).sum + (algorithms.length - 1) + 2 + paramSize "path" params.path +
    paramSize "challenge" params.challenge + paramSize "authorization" params.authorization +
    paramSize "provider_key" params.providerKey + paramSize "provider_session_id" params.providerSessionId +
    paramSize "provider_url" params.providerUrl

def challengeSize (value : CStr) (sessionId : Option CStr) : Nat := value.length + 2 + paramSize "id" sessionId

def skippedSize (entries : List SkippedArgument) : Nat :=
  (entries.map fun entry => entry.reasonText.length + if entry.sid ≠ [] then entry.sid.length + 22 else 0).sum +
    2 * (entries.length - 1)

def setCookieSize (cfg : ManagerConfig) (value : Option CStr) (maxAge : Int) : Nat :=
  (percentS cfg.cookieName).length + (percentS value).length + (percentS cfg.cookiePath).length +
    (percentD maxAge).length + 28 + (if cfg.secure then 8 else 0) +
    ((nonEmpty cfg.cookieDomain).elim 0 fun domain => domain.length + 9) +
    ((nonEmpty cfg.sameSite).elim 0 fun sameSite => sameSite.length + 11)

theorem length_paramTexts (name : CStr) (value : Option CStr) :
    (paramTexts name value).flatten.length = paramSize name value := by
  cases value with
  | none => rfl
  | some value =>
    by_cases hvalue : value = []
    · simp [paramTexts, paramSize, hvalue]
    · simp [paramTexts, paramSize, hvalue]
      omega

theorem length_registrationTexts (algorithms : List CString) (params : RegistrationParams) :
    (registrationTexts (joined ' ' algorithms) params).flatten.length = registrationSize algorithms params := by
  simp only [registrationTexts, List.flatten_append, List.length_append, length_paramTexts, List.flatten_singleton,
    length_joined, registrationSize]
  simp
  omega

theorem length_challengeTexts (value : CStr) (sessionId : Option CStr) :
    (challengeTexts value sessionId).flatten.length = challengeSize value sessionId := by
  rw [challengeTexts, List.flatten_append, List.length_append, length_paramTexts]
  simp [challengeSize]

theorem length_skippedTexts (entries : List SkippedArgument) :
    (skippedTexts entries).flatten.length = skippedSize entries := by
  unfold skippedSize
  induction entries with
  | nil => rfl
  | cons entry rest ih =>
    rw [List.map_cons, List.sum_cons]
    have hsid : (if entry.sid ≠ [] then [";session_identifier=\"" ++ entry.sid ++ "\""] else []).flatten.length =
        if entry.sid ≠ [] then entry.sid.length + 22 else 0 := by
      split <;> simp
    simp only [skippedTexts, List.flatten_append, List.length_append, hsid, ih, List.flatten_singleton]
    cases rest with
    | nil => simp
    | cons entry' rest =>
      simp
      omega

theorem length_setCookieTexts (cfg : ManagerConfig) (value : Option CStr) (maxAge : Int) :
    (setCookieTexts cfg value maxAge).flatten.length = setCookieSize cfg value maxAge := by
  have hsecure : (if cfg.secure then ("; Secure" : CStr) else []).length = if cfg.secure then 8 else 0 := by
    split <;> rfl
  have hdomain :
      (((nonEmpty cfg.cookieDomain).map fun domain => "; Domain=".toList ++ domain).toList).flatten.length =
      (nonEmpty cfg.cookieDomain).elim 0 fun domain => domain.length + 9 := by
    cases nonEmpty cfg.cookieDomain <;> simp
  have hsameSite :
      (((nonEmpty cfg.sameSite).map fun sameSite => "; SameSite=".toList ++ sameSite).toList).flatten.length =
      (nonEmpty cfg.sameSite).elim 0 fun sameSite => sameSite.length + 11 := by
    cases nonEmpty cfg.sameSite <;> simp
  simp only [setCookieTexts, setCookieStart, List.flatten_append, List.length_append, List.flatten_singleton, hsecure,
    hdomain, hsameSite, setCookieSize]
  simp
  omega

theorem fillsExactly_malloc (size : Nat) (p : Prog Sys (Option Serialized)) :
    FillsExactly (malloc size >>= fun ok => if ok then p else pure none) ↔ FillsExactly p := by
  rw [FillsExactly, returns_bind, anyAnswer_malloc]
  simp [FillsExactly]

theorem registrationSerialize_iff (algorithms : Option (List CString)) (params : RegistrationParams) :
    FillsExactly (registrationSerialize algorithms params) ↔
      ∀ strings, algorithms = some strings → registrationSize strings params ≤ intMax := by
  cases algorithms with
  | none => simp [registrationSerialize, FillsExactly]
  | some strings =>
    simp only [Option.some.injEq, forall_eq']
    by_cases hjoin : (joined ' ' strings).length + 1 < 2 ^ 64
    · rw [registrationSerialize_eq hjoin, fillsExactly_malloc, fillsExactly_iff (measures_measured _),
        length_registrationTexts]
      exact and_iff_right (by simp [registrationTexts])
    · obtain ⟨size, hjoined⟩ := joinStrings_overflow ' ' (Nat.not_lt.mp hjoin)
      have hserialize : registrationSerialize (some strings) params = malloc size >>= fun ok =>
          if ok then undefinedBehavior else pure none := by
        rw [registrationSerialize, hjoined, bind_assoc]
        exact malloc_bind_congr (undefined_bind _) rfl
      rw [hserialize, fillsExactly_malloc]
      refine iff_of_false (fun hfills => anyAnswer_undefined hfills) fun hle => hjoin ?_
      have hmax : intMax = 2147483647 := rfl
      rw [length_joined]
      unfold registrationSize at hle
      omega

theorem challengeSerialize_iff (value sessionId : Option CStr) :
    FillsExactly (challengeSerialize value sessionId) ↔
      ∀ v, value = some v → challengeSize v sessionId ≤ intMax := by
  cases value with
  | none => simp [challengeSerialize, FillsExactly]
  | some value =>
    rw [challengeSerialize_eq, fillsExactly_iff (measures_measured _), length_challengeTexts]
    simp only [Option.some.injEq, forall_eq']
    exact and_iff_right (by simp [challengeTexts])

theorem sessionSkippedSerialize_iff (entries : Option (List SkippedArgument)) :
    FillsExactly (sessionSkippedSerialize entries) ↔
      ∀ es, entries = some es → es ≠ [] ∧ skippedSize es ≤ intMax := by
  cases entries with
  | none => simp [sessionSkippedSerialize, FillsExactly]
  | some entries =>
    have hnil : skippedTexts entries ≠ [] ↔ entries ≠ [] := by
      cases entries with
      | nil => simp [skippedTexts]
      | cons entry rest =>
        simp only [skippedTexts, List.cons_append, List.nil_append]
        exact iff_of_true (List.cons_ne_nil _ _) (List.cons_ne_nil _ _)
    have hserialize : sessionSkippedSerialize (some entries) =
        serialize (measured 0 (skippedTexts entries)) (writeTexts (skippedTexts entries)) := by
      rw [sessionSkippedSerialize, skippedMeasure_eq, skippedWrite_eq]
    rw [hserialize, fillsExactly_iff (measures_measured _), length_skippedTexts, hnil]
    simp only [Option.some.injEq, forall_eq']

theorem buildSetCookieWithMaxAge_iff (cfg : ManagerConfig) (value : Option CStr) (maxAge : Int) :
    FillsExactly (buildSetCookieWithMaxAge cfg value maxAge) ↔ setCookieSize cfg value maxAge ≤ intMax := by
  rw [buildSetCookieWithMaxAge, setCookieWrite_eq, fillsExactly_iff (measures_setCookie cfg value maxAge),
    length_setCookieTexts]
  exact and_iff_right (by simp [setCookieTexts])

/-! ## The models that the headers are built with -/

theorem Measures.text {measuring : Prog Sys Int} {texts : List CStr} (h : Measures measuring texts) (hne : texts ≠ [])
    (hfits : texts.flatten.length ≤ intMax) (hnul : '\x00' ∉ texts.flatten) :
    TwoPass.serialize measuring (writeTexts texts) >>= TwoPass.text =
      malloc (texts.flatten.length + 1) >>= fun ok => pure (if ok then some texts.flatten else none) := by
  obtain ⟨r, hserialize, -, hstarts⟩ := h.serialize hne hfits
  rw [hserialize, bind_assoc]
  refine malloc_bind_congr ?_ rfl
  rw [if_pos rfl, pure_bind, TwoPass.text, stringAt_starts hstarts hnul]
  rfl

theorem sessionSkippedSerialize_text {entries : List SkippedArgument}
    (hnul : '\x00' ∉ (skippedTexts entries).flatten) :
    sessionSkippedSerialize (some entries) >>= text = OpenDbsc.sessionSkippedSerialize entries := by
  rw [sessionSkippedSerialize, skippedMeasure_eq, skippedWrite_eq]
  exact serialize_text hnul

theorem joinStrings_joined (strings : List CString) (sep : Char) :
    OpenDbsc.joinStrings (strings.map (·.bytes)) sep =
      malloc ((joined sep strings).length + 1) >>= fun ok =>
        pure (if ok then some (joined sep strings) else none) := by
  have hlen := length_joined sep strings
  unfold OpenDbsc.joinStrings
  by_cases hnil : strings = []
  · subst hnil
    rw [if_pos (by simp)]
    exact malloc_bind_congr rfl rfl
  · have htotal : ((strings.map (·.bytes)).map List.length).sum + ((strings.map (·.bytes)).length - 1) =
        (joined sep strings).length := by
      rw [hlen, List.map_map, List.length_map]
      rfl
    rw [if_neg (by simpa using hnil)]
    dsimp only
    rw [htotal]
    exact malloc_bind_congr rfl rfl

theorem registrationSerialize_text {strings : List CString} {params : RegistrationParams}
    (hfits : registrationSize strings params ≤ intMax)
    (hnul : '\x00' ∉ registrationText (strings.map (·.bytes)) params.path params.challenge params.authorization
      params.providerKey params.providerSessionId params.providerUrl) :
    registrationSerialize (some strings) params >>= text =
      OpenDbsc.registrationSerialize (strings.map (·.bytes)) params.path params.challenge params.authorization
        params.providerKey params.providerSessionId params.providerUrl := by
  have hjoin : (joined ' ' strings).length + 1 < 2 ^ 64 := by
    have hmax : intMax = 2147483647 := rfl
    rw [length_joined]
    unfold registrationSize at hfits
    omega
  have htext : registrationText (strings.map (·.bytes)) params.path params.challenge params.authorization
      params.providerKey params.providerSessionId params.providerUrl =
        (registrationTexts (joined ' ' strings) params).flatten := by
    simp [registrationText, registrationTexts, flatten_paramTexts, joined]
  rw [htext] at hnul
  rw [← length_registrationTexts] at hfits
  rw [registrationSerialize_eq hjoin, OpenDbsc.registrationSerialize, joinStrings_joined, bind_assoc, bind_assoc]
  refine malloc_bind_congr ?_ rfl
  have hpieces : (registrationTexts (joined ' ' strings) params).flatten =
      ["(" ++ joined ' ' strings ++ ")", quotedParam "path" params.path, quotedParam "challenge" params.challenge,
        quotedParam "authorization" params.authorization, quotedParam "provider_key" params.providerKey,
        quotedParam "provider_session_id" params.providerSessionId,
        quotedParam "provider_url" params.providerUrl].flatten := by
    simp [registrationTexts, flatten_paramTexts]
  simp only [if_true, pure_bind]
  rw [(measures_measured _).text (by simp [registrationTexts]) hfits hnul, hpieces, List.length_flatten]
  congr 1
  funext ok
  cases ok <;> rfl

theorem challengeSerialize_text {value : CStr} {sessionId : Option CStr}
    (hfits : challengeSize value sessionId ≤ intMax) (hnul : '\x00' ∉ challengeText value sessionId) :
    challengeSerialize (some value) sessionId >>= text = OpenDbsc.challengeSerialize (some value) sessionId := by
  have htext : challengeText value sessionId = (challengeTexts value sessionId).flatten := by
    simp [challengeText, challengeTexts, flatten_paramTexts]
  rw [← length_challengeTexts] at hfits
  rw [challengeSerialize_eq, (measures_measured _).text (by simp [challengeTexts]) hfits (by rwa [← htext]), ← htext]
  unfold OpenDbsc.challengeSerialize
  have hpieces : challengeText value sessionId = ["\"" ++ value ++ "\"", quotedParam "id" sessionId].flatten := by
    simp [challengeText]
  rw [hpieces]
  simp only [List.length_flatten]
  exact malloc_bind_congr rfl rfl

theorem buildSetCookieWithMaxAge_text {cfg : ManagerConfig} {value : Option CStr} {maxAge : Int}
    (hfits : setCookieSize cfg value maxAge ≤ intMax) (hnul : '\x00' ∉ setCookieText cfg value maxAge) :
    buildSetCookieWithMaxAge cfg value maxAge >>= text = OpenDbsc.buildSetCookieWithMaxAge cfg value maxAge := by
  rw [← length_setCookieTexts] at hfits
  rw [buildSetCookieWithMaxAge, setCookieWrite_eq,
    (measures_setCookie cfg value maxAge).text (by simp [setCookieTexts]) hfits (by rwa [flatten_setCookieTexts]),
    flatten_setCookieTexts]
  unfold OpenDbsc.buildSetCookieWithMaxAge
  dsimp only
  have hlen : (setCookieText cfg value maxAge).length = (match nonEmpty cfg.sameSite with
      | none => (setCookieStart cfg value maxAge).length
      | some sameSite => (setCookieStart cfg value maxAge ++ "; SameSite=").length + sameSite.length) +
      (optional "; Domain=" cfg.cookieDomain).length := by
    show (setCookieStart cfg value maxAge ++ optional "; Domain=" cfg.cookieDomain ++
      optional "; SameSite=" cfg.sameSite).length = _
    unfold optional
    cases nonEmpty cfg.sameSite <;> cases nonEmpty cfg.cookieDomain <;> simp <;> omega
  rw [hlen]
  exact malloc_bind_congr rfl rfl

/-! ## All four -/

/-- The serializers fill their blocks exactly when the text is no longer than
an `int` can say, and there is an entry to write. -/
theorem serializers_exact_iff (algorithms : Option (List CString)) (params : RegistrationParams)
    (value sessionId : Option CStr) (entries : Option (List SkippedArgument)) (cfg : ManagerConfig)
    (cookie : Option CStr) (maxAge : Int) :
    (FillsExactly (registrationSerialize algorithms params) ↔
      ∀ strings, algorithms = some strings → registrationSize strings params ≤ intMax) ∧
    (FillsExactly (challengeSerialize value sessionId) ↔
      ∀ text, value = some text → challengeSize text sessionId ≤ intMax) ∧
    (FillsExactly (sessionSkippedSerialize entries) ↔
      ∀ written, entries = some written → written ≠ [] ∧ skippedSize written ≤ intMax) ∧
    (FillsExactly (buildSetCookieWithMaxAge cfg cookie maxAge) ↔ setCookieSize cfg cookie maxAge ≤ intMax) :=
  ⟨registrationSerialize_iff algorithms params, challengeSerialize_iff value sessionId,
    sessionSkippedSerialize_iff entries, buildSetCookieWithMaxAge_iff cfg cookie maxAge⟩

/-- Without entries the terminator is not written: the one byte is as `malloc` left it. -/
theorem sessionSkippedSerialize_unterminated : ¬ FillsExactly (sessionSkippedSerialize (some [])) :=
  not_fillsExactly_nil (measures_measured [])

end TwoPass

end OpenDbsc
