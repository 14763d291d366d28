/-
Which cookie a request carries.

The cookie sought is the first segment of the header with an `=` and the name
before it. The scanner of `opendbsc_http_get_cookie` goes from segment to
segment like that, but stops for good at one without an `=`
(`cookieValue_eq`): so it is right exactly when no such segment stands before
the one sought (`cookie_found_iff`).
-/
import OpenDbsc.Http
import OpenDbsc.Effects.Reports

namespace OpenDbsc

open Effects Prog

/-- The name and the value of a segment that has an `=`. -/
def cookiePair (segment : List Char) : Option (List Char × List Char) :=
  let text := segment.dropWhile isBlank
  if '=' ∈ text then some (text.takeWhile (· ≠ '='), (text.dropWhile (· ≠ '=')).drop 1) else none

/-- The value a segment has for `name`. -/
def cookieIn (name : CStr) (segment : List Char) : Option (List Char) :=
  (cookiePair segment).bind fun pair => if pair.1 = name then some pair.2 else none

def cookieSought (name : CStr) (cookie : List Char) : Option (List Char) :=
  (cookie.splitOn ';').findSome? (cookieIn name)

/-- Every segment before the first one for `name` has an `=`. -/
def NoneInTheWay (name : CStr) (cookie : List Char) : Prop :=
  ∀ before segment after, cookie.splitOn ';' = before ++ segment :: after → (cookieIn name segment).isSome →
    (∀ s ∈ before, cookieIn name s = none) → ∀ s ∈ before, '=' ∈ s

/-! ## Segment by segment -/

/-- What follows a segment: nothing, or a `;` and the rest. -/
def afterSegment : Option (List Char) → List Char
  | none => []
  | some rest => ';' :: rest

theorem takeWhile_segment {p : Char → Bool} {text : List Char} (htext : ∀ c ∈ text, p c = true) (hp : p ';' = false)
    (after : Option (List Char)) : (text ++ afterSegment after).takeWhile p = text := by
  rw [List.takeWhile_append_of_pos htext]
  cases after <;> simp [afterSegment, hp]

theorem dropWhile_segment {p : Char → Bool} {text : List Char} (htext : ∀ c ∈ text, p c = true) (hp : p ';' = false)
    (after : Option (List Char)) : (text ++ afterSegment after).dropWhile p = afterSegment after := by
  rw [List.dropWhile_append_of_pos htext]
  cases after <;> simp [afterSegment, hp]

theorem dropBlanks_segment (segment : List Char) (after : Option (List Char)) :
    (segment ++ afterSegment after).dropWhile isBlank = segment.dropWhile isBlank ++ afterSegment after := by
  rw [List.dropWhile_append]
  split
  · rename_i h
    rw [List.isEmpty_iff.mp h]
    cases after <;> rfl
  · rfl

theorem mem_dropBlanks {segment : List Char} : '=' ∈ segment.dropWhile isBlank ↔ '=' ∈ segment := by
  induction segment with
  | nil => rfl
  | cons c segment ih =>
    rw [List.dropWhile_cons]
    split
    · rename_i hc
      have hne : '=' ≠ c := fun he => by simp [← he, isBlank] at hc
      rw [ih, List.mem_cons, or_iff_right hne]
    · rfl

theorem cookieIn_none {name : CStr} {segment : List Char} (h : '=' ∉ segment) : cookieIn name segment = none := by
  rw [cookieIn, cookiePair, if_neg (mem_dropBlanks.not.mpr h)]
  rfl

/-- A turn of the scanner, with nothing said of where it stands. -/
theorem cookieValue_turn (name : CStr) (turns : Nat) (p : List Char) :
    cookieValue name (turns + 1) p =
      match (p.dropWhile isBlank).dropWhile fun c => c ≠ '=' && c ≠ ';' with
      | '=' :: rest =>
        if (p.dropWhile isBlank).takeWhile (fun c => c ≠ '=' && c ≠ ';') = name then some (rest.takeWhile (· ≠ ';'))
        else cookieValue name turns ((rest.dropWhile (· ≠ ';')).drop 1)
      | _ => none := by
  rw [cookieValue]
  cases p.dropWhile isBlank with
  | nil => rfl
  | cons c p => rfl

theorem cookieValue_nil (name : CStr) (turns : Nat) : cookieValue name turns [] = none := by
  cases turns <;> rfl

section

variable {name : CStr} {segment : List Char}

theorem text_of_segment (h : ';' ∉ segment) : ';' ∉ segment.dropWhile isBlank :=
  fun hc => h ((List.dropWhile_sublist isBlank).subset hc)

/-- A turn on a segment without an `=` is the last. -/
theorem cookieValue_stops (h : ';' ∉ segment) (heq : '=' ∉ segment) (turns : Nat) (after : Option (List Char)) :
    cookieValue name (turns + 1) (segment ++ afterSegment after) = none := by
  have hnone := text_of_segment h
  rw [← mem_dropBlanks] at heq
  rw [cookieValue_turn, dropBlanks_segment]
  generalize segment.dropWhile isBlank = text at hnone heq
  have hkey : ∀ c ∈ text, (c ≠ '=' && c ≠ ';') = true := fun c hc => by
    have h₁ : c ≠ '=' := fun he => heq (he ▸ hc)
    have h₂ : c ≠ ';' := fun he => hnone (he ▸ hc)
    simp [h₁, h₂]
  rw [dropWhile_segment hkey (by decide)]
  cases after <;> rfl

/-- A turn on a segment with one takes it, or goes on to the next. -/
theorem cookieValue_goes_on (h : ';' ∉ segment) (heq : '=' ∈ segment) (turns : Nat) (after : Option (List Char)) :
    cookieValue name (turns + 1) (segment ++ afterSegment after) =
      (cookieIn name segment).or (cookieValue name turns (after.getD [])) := by
  have hnone := text_of_segment h
  rw [← mem_dropBlanks] at heq
  rw [cookieValue_turn, dropBlanks_segment, cookieIn, cookiePair, if_pos heq]
  generalize segment.dropWhile isBlank = text at hnone heq
  obtain ⟨key, value, rfl, hkey⟩ := List.eq_append_cons_of_mem heq
  have hne : ∀ c ∈ key, c ≠ '=' := fun c hc he => hkey (he ▸ hc)
  have hsemi : ∀ c ∈ key, c ≠ ';' := fun c hc he => hnone (he ▸ List.mem_append_left _ hc)
  have hvalue : ∀ c ∈ value, decide (c ≠ ';') = true := fun c hc =>
    decide_eq_true fun he => hnone (he ▸ List.mem_append_right _ (List.mem_cons_of_mem _ hc))
  have hname : ∀ c ∈ key, (c ≠ '=' && c ≠ ';') = true := fun c hc => by simp [hne c hc, hsemi c hc]
  have hplain : ∀ c ∈ key, decide (c ≠ '=') = true := fun c hc => decide_eq_true (hne c hc)
  have hscan : (key ++ '=' :: value ++ afterSegment after).dropWhile (fun c => c ≠ '=' && c ≠ ';') =
      '=' :: (value ++ afterSegment after) := by
    rw [List.append_assoc, List.dropWhile_append_of_pos hname]
    rfl
  have hkeyText : (key ++ '=' :: value ++ afterSegment after).takeWhile (fun c => c ≠ '=' && c ≠ ';') = key := by
    rw [List.append_assoc, List.takeWhile_append_of_pos hname]
    simp
  have hspecKey : (key ++ '=' :: value).takeWhile (fun c => decide (c ≠ '=')) = key := by
    rw [List.takeWhile_append_of_pos hplain]
    simp
  have hspecRest : (key ++ '=' :: value).dropWhile (fun c => decide (c ≠ '=')) = '=' :: value := by
    rw [List.dropWhile_append_of_pos hplain]
    simp
  rw [hscan, hkeyText, hspecKey, hspecRest]
  simp only [takeWhile_segment hvalue rfl, dropWhile_segment hvalue rfl, Option.bind_some, List.drop_one,
    List.tail_cons]
  by_cases hkeyName : key = name
  · simp [hkeyName]
  · cases after <;> simp [hkeyName, afterSegment]

end

/-- **What the scanner finds** is in the segments up to the first without an `=`. -/
theorem cookieValue_eq (name : CStr) {turns : Nat} {cookie : List Char} (h : cookie.length ≤ turns) :
    cookieValue name turns cookie = ((cookie.splitOn ';').takeWhile ('=' ∈ ·)).findSome? (cookieIn name) := by
  induction turns generalizing cookie with
  | zero =>
    rw [List.eq_nil_of_length_eq_zero (Nat.le_zero.mp h)]
    rfl
  | succ turns ih =>
    by_cases hmore : ';' ∈ cookie
    · obtain ⟨segment, rest, rfl, hsegment⟩ := List.eq_append_cons_of_mem hmore
      rw [List.splitOn_append_cons_self_of_not_mem hsegment, List.takeWhile_cons]
      by_cases heq : '=' ∈ segment
      · have hrest : rest.length ≤ turns := by simp at h; omega
        rw [if_pos (decide_eq_true heq), List.findSome?_cons, ← ih hrest]
        exact (cookieValue_goes_on hsegment heq turns (some rest)).trans (by cases cookieIn name segment <;> rfl)
      · rw [if_neg (by simpa using heq)]
        exact cookieValue_stops hsegment heq turns (some rest)
    · rw [List.splitOn_eq_singleton hmore, List.takeWhile_cons]
      by_cases heq : '=' ∈ cookie
      · have hlast : cookieValue name (turns + 1) (cookie ++ afterSegment none) = _ :=
          cookieValue_goes_on hmore heq turns none
        rw [afterSegment, List.append_nil] at hlast
        rw [if_pos (decide_eq_true heq), hlast, Option.getD_none, cookieValue_nil]
        simp
      · have hlast : cookieValue name (turns + 1) (cookie ++ afterSegment none) = _ :=
          cookieValue_stops hmore heq turns none
        rw [afterSegment, List.append_nil] at hlast
        rw [if_neg (by simpa using heq), hlast]
        rfl

/-! ## The cookie sought -/

section

variable {α β : Type} {f : α → Option β} {p : α → Bool}

/-- What stands before the first element that `f` takes satisfies `p`. -/
def ClearOf (f : α → Option β) (p : α → Bool) (l : List α) : Prop :=
  ∀ before x after, l = before ++ x :: after → (f x).isSome → (∀ y ∈ before, f y = none) → ∀ y ∈ before, p y = true

theorem clearOf_taken {x : α} (h : (f x).isSome) (l : List α) : ClearOf f p (x :: l) := by
  intro before y after heq _ hbefore
  cases before with
  | nil => simp
  | cons z before =>
    cases (List.cons.inj heq).1
    rw [hbefore x List.mem_cons_self] at h
    cases h

theorem clearOf_passed {x : α} (h : f x = none) {l : List α} :
    ClearOf f p (x :: l) ↔ ClearOf f p l ∧ (p x = true ∨ ∀ y ∈ l, f y = none) := by
  constructor
  · intro hclear
    refine ⟨fun before y after heq hy hbefore z hz => ?_, ?_⟩
    · refine hclear (x :: before) y after (by rw [heq]; rfl) hy ?_ z (List.mem_cons_of_mem x hz)
      simpa [h] using hbefore
    · by_cases hall : ∀ y ∈ l, f y = none
      · exact .inr hall
      · rw [← List.findSome?_eq_none_iff] at hall
        obtain ⟨b, hb⟩ := Option.ne_none_iff_exists'.mp hall
        obtain ⟨before, y, after, rfl, hy, hbefore⟩ := List.findSome?_eq_some_iff.mp hb
        refine .inl (hclear (x :: before) y after rfl (by simp [hy]) ?_ x List.mem_cons_self)
        simpa [h] using hbefore
  · intro ⟨hclear, hx⟩ before y after heq hy hbefore z hz
    cases before with
    | nil => cases hz
    | cons w before =>
      obtain ⟨rfl, rfl⟩ := List.cons.inj heq
      rcases List.mem_cons.mp hz with rfl | hz
      · refine hx.resolve_right fun hall => ?_
        rw [hall y (by simp)] at hy
        cases hy
      · exact hclear before y after rfl hy (fun v hv => hbefore v (List.mem_cons_of_mem _ hv)) z hz

/-- Stopping early makes no difference when nothing stands in the way. -/
theorem findSome_takeWhile_iff (hf : ∀ x, (f x).isSome → p x = true) (l : List α) :
    (l.takeWhile p).findSome? f = l.findSome? f ↔ ClearOf f p l := by
  induction l with
  | nil => exact iff_of_true rfl fun before x after heq => by simp at heq
  | cons x l ih =>
    cases hx : f x with
    | some b =>
      rw [List.takeWhile_cons, if_pos (hf x (by simp [hx]))]
      exact iff_of_true (by simp [hx]) (clearOf_taken (by simp [hx]) l)
    | none =>
      rw [clearOf_passed hx, ← ih, List.takeWhile_cons, List.findSome?_cons, hx]
      by_cases hp : p x = true
      · simp [hp, hx]
      · rw [if_neg hp, List.findSome?_nil, eq_comm, List.findSome?_eq_none_iff]
        refine ⟨fun hall => ⟨?_, .inr hall⟩, fun h => h.2.resolve_left hp⟩
        rw [List.findSome?_eq_none_iff.mpr hall, List.findSome?_eq_none_iff]
        exact fun y hy => hall y ((List.takeWhile_sublist p).subset hy)

end

theorem mem_of_cookieIn {name : CStr} {segment : List Char} (h : (cookieIn name segment).isSome) :
    decide ('=' ∈ segment) = true := by
  refine decide_eq_true (not_not.mp fun heq => ?_)
  rw [cookieIn_none heq] at h
  cases h

theorem noneInTheWay_iff {name : CStr} {cookie : List Char} :
    NoneInTheWay name cookie ↔ ClearOf (cookieIn name) ('=' ∈ ·) (cookie.splitOn ';') := by
  simp [NoneInTheWay, ClearOf]

/-- **When the cookie is found.** Of a request's `Cookie` header, in every run:
what is returned is the cookie sought, or NULL if there is none, exactly when
no segment without an `=` stands before it and there is memory for it. -/
theorem cookie_found_iff {hm : HttpMessage} {cookie : List Char} (hcookie : hm.getHeader "Cookie" = some cookie) (name : CStr)
    {tr : List (Event Sys)} {out : Option CStr} (h : Trace (httpGetCookie hm (some name)) tr out) :
    out = (cookieSought name cookie).map untilNul ↔ NoneInTheWay name cookie ∧ Obeys allocOk tr := by
  rw [noneInTheWay_iff, ← findSome_takeWhile_iff fun _ => mem_of_cookieIn, ← cookieValue_eq name le_rfl, ← cookieSought]
  simp only [httpGetCookie, hcookie] at h
  cases hvalue : cookieValue name cookie.length cookie with
  | none =>
    rw [hvalue] at h
    obtain ⟨rfl, rfl⟩ := trace_pure.mp h
    rw [and_iff_left obeys_nil, eq_comm, Option.map_eq_none_iff, eq_comm]
  | some value =>
    rw [hvalue] at h
    obtain ⟨tr₁, ok, tr₂, rfl, hmalloc, h⟩ := trace_bind.mp h
    rw [cookieValue_eq name le_rfl] at hvalue
    have hsought : cookieSought name cookie = some value :=
      (List.takeWhile_prefix _).findSome?_eq_some hvalue
    rw [hsought, and_iff_right rfl]
    have hobeys : Obeys allocOk (tr₁ ++ tr₂) ↔ ok = true := by
      rw [trace_perform.mp hmalloc, obeys_append, obeys_singleton, and_iff_left]
      · exact ⟨fun ho => ho true rfl, fun ho x hx => ho.trans (Option.some.inj hx)⟩
      · split at h <;> rw [(trace_pure.mp h).1] <;> exact obeys_nil
    rw [hobeys]
    split at h <;> rw [(trace_pure.mp h).2]
    · exact iff_of_true rfl ‹_›
    · exact iff_of_false nofun ‹_›

/-- A request whose `Cookie` header is `cookie`. -/
def cookieRequest (cookie : List Char) : HttpMessage :=
  ⟨"GET".toList, "/".toList, [], fun name => if name = "Cookie" then some cookie else none⟩

/-- A cookie in second place. -/
theorem cookie_found_second : ∃ tr, Trace (httpGetCookie (cookieRequest "a=b; id=1; x".toList) (some "id")) tr (some "1".toList) ∧
    NoneInTheWay "id" "a=b; id=1; x".toList ∧ Obeys allocOk tr := by
  have hrun : httpGetCookie (cookieRequest "a=b; id=1; x".toList) (some "id") =
      (malloc 2 >>= fun ok => if ok then pure (some "1".toList) else pure none) := rfl
  have h : Trace (httpGetCookie (cookieRequest "a=b; id=1; x".toList) (some "id")) [⟨SysOp.malloc 2, true⟩]
    (some "1".toList) :=
    hrun ▸ trace_bind.mpr ⟨[⟨SysOp.malloc 2, true⟩], true, [], rfl, trace_perform.mpr rfl, trace_pure.mpr ⟨rfl, rfl⟩⟩
  exact ⟨_, h, (cookie_found_iff rfl "id" h).mp (by decide)⟩

/-- A segment without an `=` hides the cookie behind it. -/
theorem cookie_hidden : ∃ tr, Trace (httpGetCookie (cookieRequest "foo; session=1".toList) (some "session")) tr none ∧
    Obeys allocOk tr ∧ cookieSought "session" "foo; session=1".toList = some "1".toList :=
  ⟨[], trace_pure.mpr ⟨rfl, rfl⟩, obeys_nil, by decide⟩

end OpenDbsc
