/-
The timestamps of `store/sqlite.c`: `format_rfc3339_utc`, `parse_rfc3339_utc`
and what they use of glibc.

`strftime`'s `%Y` prints a year with as many digits as it needs, and
`strptime`'s reads at most four; `timegm` says -1 for an error and for the
last second of 1969. So a time that is printed is read back exactly if it is
in a year from 0 to 9999 and is not that second (`parse_format`).
-/
import OpenDbsc.Calendar.Civil
import OpenDbsc.Sys

namespace OpenDbsc

open Calendar

/-- A `struct tm`: `mon` counts from zero, `year` from 1900. -/
structure Tm where
  sec : Int
  min : Int
  hour : Int
  mday : Int
  mon : Int
  year : Int

/-- `gmtime_r`; null when the year is no `int`. -/
def gmtime (t : Int) : Option Tm :=
  let date := ofDays (t / 86400)
  let sec := t % 86400
  if -2 ^ 31 ≤ date.year - 1900 ∧ date.year - 1900 < 2 ^ 31 then
    some
      { sec := sec % 60, min := sec / 60 % 60, hour := sec / 3600, mday := date.day, mon := date.month - 1,
        year := date.year - 1900 }
  else none

/-- `timegm`, of a month within the year. -/
def timegm (tm : Tm) : Int :=
  (Date.mk (tm.year + 1900) (tm.mon + 1) tm.mday).toDays * 86400 + tm.hour * 3600 + tm.min * 60 + tm.sec

/-- Two digits. -/
def percent02 (n : Int) : CStr := [Nat.digitChar (n.toNat / 10 % 10), Nat.digitChar (n.toNat % 10)]

/-- `strftime` with `%Y-%m-%dT%H:%M:%SZ`; nothing when the text and its terminator
do not fit. A year above `INT_MAX` is printed as it is, where glibc wraps it;
neither text is read back, and both fit the stores' buffers. -/
def strftime (max : Nat) (tm : Tm) : Option CStr :=
  let text := percentD (tm.year + 1900) ++ '-' :: percent02 (tm.mon + 1) ++ '-' :: percent02 tm.mday ++
    'T' :: percent02 tm.hour ++ ':' :: percent02 tm.min ++ ':' :: percent02 tm.sec ++ ['Z']
  if text.length < max then some text else none

def formatRfc3339Utc (t : Int) (bufSize : Nat) : Option CStr := do
  let tm ← gmtime t
  strftime bufSize tm

def isSpace (c : Char) : Bool := c ∈ [' ', '\t', '\n', '\x0b', '\x0c', '\r']

/-- Digits are taken while `n` allows and one more can stay within `hi`. -/
def takeDigits (hi : Nat) : Nat → Nat → CStr → Nat × CStr
  | n + 1, val, c :: s =>
    if c.isDigit ∧ val * 10 ≤ hi then takeDigits hi n (10 * val + (c.toNat - '0'.toNat)) s else (val, c :: s)
  | _, val, s => (val, s)

/-- `strptime`'s `get_number`: blanks, then a number of at most `n` digits from `lo` to `hi`. -/
def getNumber (lo hi n : Nat) (s : CStr) : Option (Nat × CStr) :=
  match s.dropWhile isSpace with
  | [] => none
  | c :: s =>
    if !c.isDigit then none
    else
      let (val, s) := takeDigits hi n 0 (c :: s)
      if val < lo ∨ val > hi then none else some (val, s)

def matchChar (c : Char) : CStr → Option CStr
  | [] => none
  | c' :: s => if c' = c then some s else none

/-- `strptime` with `%Y-%m-%dT%H:%M:%S`. -/
def strptime (s : CStr) : Option (Tm × CStr) := do
  let (year, s) ← getNumber 0 9999 4 s
  let s ← matchChar '-' s
  let (mon, s) ← getNumber 1 12 2 s
  let s ← matchChar '-' s
  let (mday, s) ← getNumber 1 31 2 s
  let s ← matchChar 'T' s
  let (hour, s) ← getNumber 0 23 2 s
  let s ← matchChar ':' s
  let (min, s) ← getNumber 0 59 2 s
  let s ← matchChar ':' s
  let (sec, s) ← getNumber 0 61 2 s
  some (⟨sec, min, hour, mday, mon - 1, year - 1900⟩, s)

/-- What follows the seconds is ignored. -/
def parseRfc3339Utc (s : CStr) : Option Int := do
  let (tm, _) ← strptime s
  let t := timegm tm
  if t = -1 then none else some t

/-! ## Times -/

theorem timegm_gmtime {t : Int} {tm : Tm} (h : gmtime t = some tm) : timegm tm = t := by
  unfold gmtime at h
  simp only [Option.ite_none_right_eq_some, Option.some.injEq] at h
  obtain ⟨-, rfl⟩ := h
  unfold timegm
  have hdate :
    Date.mk ((ofDays (t / 86400)).year - 1900 + 1900) ((ofDays (t / 86400)).month - 1 + 1) (ofDays (t / 86400)).day =
      ofDays (t / 86400) := by
    simp
  simp only [hdate, toDays_ofDays]
  omega

/-- The times `format_rfc3339_utc` can print. -/
def Formattable (t : Int) : Prop := -67768040609740800 ≤ t ∧ t ≤ 67768036191676799

/-- The times `parse_rfc3339_utc` can give: years 0 to 9999, but for the second before 1970. -/
def Parseable (t : Int) : Prop := -62167219200 ≤ t ∧ t ≤ 253402300799 ∧ t ≠ -1

instance (t : Int) : Decidable (Formattable t) := inferInstanceAs (Decidable (_ ∧ _))

instance (t : Int) : Decidable (Parseable t) := inferInstanceAs (Decidable (_ ∧ _))

theorem le_year_of_time {n t : Int} : n ≤ (ofDays (t / 86400)).year ↔ (Date.mk n 1 1).toDays * 86400 ≤ t := by
  rw [le_year_iff]
  omega

theorem gmtime_isSome {t : Int} : (gmtime t).isSome = true ↔ Formattable t := by
  have hlo := @le_year_of_time (-2147481748) t
  have hhi := @le_year_of_time 2147485548 t
  have hlo' : (Date.mk (-2147481748) 1 1).toDays * 86400 = -67768040609740800 := by decide
  have hhi' : (Date.mk 2147485548 1 1).toDays * 86400 = 67768036191676800 := by decide
  rw [hlo'] at hlo
  rw [hhi'] at hhi
  unfold gmtime Formattable
  simp only
  split
  · simp only [Option.isSome_some, true_iff]
    omega
  · simp only [Option.isSome_none, Bool.false_eq_true, false_iff]
    omega

/-! ## Numbers -/

theorem le_ofDigitChars (ds : CStr) (val : Nat) : val ≤ Nat.ofDigitChars 10 ds val := by
  rw [Nat.ofDigitChars_eq_ofDigitChars_zero]
  have hpow : 0 < 10 ^ ds.length := Nat.pow_pos (by decide)
  have hmul := Nat.le_mul_of_pos_left val hpow
  omega

/-- A number of few enough digits is taken whole. -/
theorem takeDigits_eq {hi n val : Nat} {ds rest : CStr} (hds : ∀ c ∈ ds, c.isDigit = true) (hlen : ds.length ≤ n)
    (hval : Nat.ofDigitChars 10 ds val ≤ hi) (hrest : ds.length = n ∨ ∀ c s, rest = c :: s → c.isDigit = false) :
    takeDigits hi n val (ds ++ rest) = (Nat.ofDigitChars 10 ds val, rest) := by
  induction ds generalizing n val with
  | nil =>
    rw [List.nil_append, Nat.ofDigitChars_nil]
    cases n with
    | zero => cases rest <;> rfl
    | succ n =>
      cases rest with
      | nil => rfl
      | cons c s =>
        have hc := hrest.resolve_left (by simp) c s rfl
        rw [takeDigits, if_neg (by simp [hc])]
  | cons c ds ih =>
    cases n with
    | zero => simp at hlen
    | succ n =>
      rw [Nat.ofDigitChars_cons] at hval ⊢
      have hle := le_ofDigitChars ds (10 * val + (c.toNat - '0'.toNat))
      rw [List.cons_append, takeDigits, if_pos ⟨hds c List.mem_cons_self, by omega⟩]
      refine ih (fun c hc => hds c (List.mem_cons_of_mem _ hc)) (by simpa using hlen) hval ?_
      exact hrest.imp_left (by simp)

theorem dropWhile_digit {c : Char} (hc : c.isDigit = true) (s : CStr) : (c :: s).dropWhile isSpace = c :: s := by
  rw [List.dropWhile_cons_of_neg]
  intro hspace
  have hmem : c ∈ [' ', '\t', '\n', '\x0b', '\x0c', '\r'] := by simpa [isSpace] using hspace
  simp only [List.mem_cons, List.not_mem_nil, or_false] at hmem
  rcases hmem with rfl | rfl | rfl | rfl | rfl | rfl <;> exact absurd hc (by decide)

theorem getNumber_eq {lo hi n : Nat} {ds rest : CStr} (hne : ds ≠ []) (hds : ∀ c ∈ ds, c.isDigit = true)
    (hlen : ds.length ≤ n) (hlo : lo ≤ Nat.ofDigitChars 10 ds 0) (hhi : Nat.ofDigitChars 10 ds 0 ≤ hi)
    (hrest : ds.length = n ∨ ∀ c s, rest = c :: s → c.isDigit = false) :
    getNumber lo hi n (ds ++ rest) = some (Nat.ofDigitChars 10 ds 0, rest) := by
  obtain ⟨c, ds, rfl⟩ := List.exists_cons_of_ne_nil hne
  have hc := hds c List.mem_cons_self
  have htake := takeDigits_eq hds hlen hhi hrest
  unfold getNumber
  rw [List.cons_append, dropWhile_digit hc]
  rw [List.cons_append] at htake
  simp only [hc, Bool.not_true, Bool.false_eq_true, if_false, htake]
  rw [if_neg (by omega)]

theorem isDigit_digitChar {d : Nat} (h : d < 10) : (Nat.digitChar d).isDigit = true := by
  simp [h]

/-- Two digits are read back. -/
theorem getNumber_percent02 {lo hi : Nat} {n : Int} (hlo : (lo : Int) ≤ n) (hhi : n ≤ hi) (h100 : hi < 100)
    (rest : CStr) :
    getNumber lo hi 2 (percent02 n ++ rest) = some (n.toNat, rest) := by
  have hval : Nat.ofDigitChars 10 (percent02 n) 0 = n.toNat := by
    unfold percent02
    rw [Nat.ofDigitChars_cons_digitChar_of_lt_ten (by omega), Nat.ofDigitChars_cons_digitChar_of_lt_ten (by omega),
      Nat.ofDigitChars_nil]
    omega
  have hdigits : ∀ c ∈ percent02 n, c.isDigit = true := by
    intro c hc
    rcases List.mem_pair.mp hc with rfl | rfl
    · exact isDigit_digitChar (by omega)
    · exact isDigit_digitChar (by omega)
  have hne : percent02 n ≠ [] := List.cons_ne_nil _ _
  rw [getNumber_eq hne hdigits (Nat.le_refl 2) (by omega) (by omega) (.inl rfl), hval]

theorem percentD_nat (n : Nat) : percentD (n : Int) = Nat.toDigits 10 n := Nat.toList_repr

theorem percentD_negSucc (n : Nat) : percentD (Int.negSucc n) = '-' :: Nat.toDigits 10 (n + 1) := by
  show ("-" ++ toString (n + 1)).toList = _
  rw [String.toList_append, Nat.toString_eq_repr, Nat.toList_repr]
  rfl

theorem percentD_length {n : Int} (h : n.natAbs < 10 ^ 10) : (percentD n).length ≤ 11 := by
  have hdigits : (Nat.toDigits 10 n.natAbs).length ≤ 10 := (Nat.length_toDigits_le_iff (by decide) (by decide)).mpr h
  cases n with
  | ofNat n =>
    rw [Int.ofNat_eq_natCast, percentD_nat]
    exact Nat.le_succ_of_le hdigits
  | negSucc n =>
    rw [percentD_negSucc]
    exact Nat.succ_le_succ hdigits

theorem isDigit_of_mem_percentD {n : Nat} {c : Char} (hc : c ∈ percentD (n : Int)) : c.isDigit = true := by
  rw [percentD_nat] at hc
  exact Nat.isDigit_of_mem_toDigits (by decide) (by decide) hc

theorem getNumber_year {n : Nat} (h : n ≤ 9999) (rest : CStr) :
    getNumber 0 9999 4 (percentD n ++ '-' :: rest) = some (n, '-' :: rest) := by
  have hval : Nat.ofDigitChars 10 (percentD n) 0 = n := by rw [percentD_nat, Nat.ofDigitChars_ten_toDigits]
  have hlen : (percentD n).length ≤ 4 := by
    rw [percentD_nat, Nat.length_toDigits_le_iff (by decide) (by decide)]
    omega
  have hne : percentD (n : Int) ≠ [] := by
    rw [percentD_nat]
    exact Nat.toDigits_ne_nil
  have hdash : ∀ c s, '-' :: rest = c :: s → c.isDigit = false := by
    intro c s heq
    cases heq
    rfl
  rw [getNumber_eq hne (fun c hc => isDigit_of_mem_percentD hc) hlen (Nat.zero_le _) (by omega) (.inr hdash), hval]

/-- At most `n` characters are taken. -/
theorem takeDigits_drop (hi n val : Nat) (s : CStr) : ∃ k ≤ n, (takeDigits hi n val s).2 = s.drop k := by
  induction n generalizing val s with
  | zero => exact ⟨0, Nat.le_refl 0, by cases s <;> rfl⟩
  | succ n ih =>
    cases s with
    | nil => exact ⟨0, Nat.zero_le _, rfl⟩
    | cons c s =>
      rw [takeDigits]
      split
      · obtain ⟨k, hk, hdrop⟩ := ih (10 * val + (c.toNat - '0'.toNat)) s
        exact ⟨k + 1, by omega, hdrop⟩
      · exact ⟨0, Nat.zero_le _, rfl⟩

/-- Of a longer number, what follows begins with a digit. -/
theorem getNumber_long {lo hi n : Nat} {ds rest : CStr} (hds : ∀ c ∈ ds, c.isDigit = true) (hlen : n < ds.length)
    {val : Nat} {s : CStr} (h : getNumber lo hi n (ds ++ rest) = some (val, s)) :
    ∃ c s', s = c :: s' ∧ c.isDigit = true := by
  obtain ⟨c, ds, rfl⟩ := List.exists_cons_of_ne_nil (List.ne_nil_of_length_pos (Nat.zero_lt_of_lt hlen))
  have hc := hds c List.mem_cons_self
  obtain ⟨k, hk, hdrop⟩ := takeDigits_drop hi n 0 (c :: (ds ++ rest))
  unfold getNumber at h
  rw [List.cons_append, dropWhile_digit hc] at h
  simp only [hc, Bool.not_true, Bool.false_eq_true, if_false, Option.ite_none_left_eq_some, Option.some.injEq] at h
  obtain ⟨-, h⟩ := h
  have hlt : k < (c :: ds).length := Nat.lt_of_le_of_lt hk hlen
  have hs : s = (c :: ds ++ rest).drop k := (congrArg Prod.snd h).symm.trans hdrop
  rw [List.drop_append_of_le_length (Nat.le_of_lt hlt), List.drop_eq_getElem_cons hlt] at hs
  exact ⟨_, _, hs, hds _ (List.getElem_mem hlt)⟩

/-- A year before 0 or after 9999 is not read back. -/
theorem strptime_year {year : Int} (h : year < 0 ∨ 9999 < year) (rest : CStr) :
    strptime (percentD year ++ '-' :: rest) = none := by
  unfold strptime
  rcases h with hneg | hbig
  · obtain ⟨n, rfl⟩ : ∃ n, year = Int.negSucc n := Int.eq_negSucc_of_lt_zero hneg
    rw [percentD_negSucc]
    rfl
  · obtain ⟨n, rfl⟩ := Int.eq_ofNat_of_zero_le (show 0 ≤ year by omega)
    cases hnum : getNumber 0 9999 4 (percentD n ++ '-' :: rest) with
    | none => rfl
    | some r =>
      obtain ⟨val, s⟩ := r
      have hlen : 4 < (percentD (n : Int)).length := by
        rw [percentD_nat]
        have hle := @Nat.length_toDigits_le_iff 10 n 4 (by decide) (by decide)
        omega
      obtain ⟨c, s', rfl, hc⟩ := getNumber_long (fun c hc => isDigit_of_mem_percentD hc) hlen hnum
      have hne : c ≠ '-' := by
        rintro rfl
        cases hc
      simp [matchChar, hne]

/-- Within the bounds of a `struct tm`. -/
structure Tm.Valid (tm : Tm) : Prop where
  sec : 0 ≤ tm.sec ∧ tm.sec ≤ 59
  min : 0 ≤ tm.min ∧ tm.min ≤ 59
  hour : 0 ≤ tm.hour ∧ tm.hour ≤ 23
  mday : 1 ≤ tm.mday ∧ tm.mday ≤ 31
  mon : 0 ≤ tm.mon ∧ tm.mon ≤ 11

theorem gmtime_valid {t : Int} {tm : Tm} (h : gmtime t = some tm) :
    tm.Valid ∧ tm.year + 1900 = (ofDays (t / 86400)).year := by
  obtain ⟨hmonth, hday⟩ := ofDays_bounds (t / 86400)
  unfold gmtime at h
  simp only [Option.ite_none_right_eq_some, Option.some.injEq] at h
  obtain ⟨-, rfl⟩ := h
  refine ⟨⟨?_, ?_, ?_, hday, ?_⟩, ?_⟩ <;> simp only <;> omega

/-- What `strftime` prints. -/
theorem strftime_text {max : Nat} {tm : Tm} {text : CStr} (h : strftime max tm = some text) : text =
    percentD (tm.year + 1900) ++ '-' :: (percent02 (tm.mon + 1) ++ '-' :: (percent02 tm.mday ++
      'T' :: (percent02 tm.hour ++ ':' :: (percent02 tm.min ++ ':' :: (percent02 tm.sec ++ ['Z']))))) := by
  unfold strftime at h
  simp only [Option.ite_none_right_eq_some, Option.some.injEq] at h
  obtain ⟨-, rfl⟩ := h
  simp only [List.append_assoc, List.cons_append]

theorem strptime_strftime {max : Nat} {tm : Tm} {text : CStr} (h : strftime max tm = some text) (hv : tm.Valid)
    (hyear : 0 ≤ tm.year + 1900 ∧ tm.year + 1900 ≤ 9999) : strptime text = some (tm, ['Z']) := by
  obtain ⟨hsec, hmin, hhour, hmday, hmon⟩ := hv
  obtain ⟨y, hy⟩ := Int.eq_ofNat_of_zero_le hyear.1
  have hmatch : ∀ c s, matchChar c (c :: s) = some s := fun c s => if_pos rfl
  rw [strftime_text h, hy]
  unfold strptime
  simp only [getNumber_year (n := y) (by omega), hmatch, Option.bind_eq_bind, Option.bind_some,
    @getNumber_percent02 1 12 (tm.mon + 1) (by omega) (by omega) (by omega),
    @getNumber_percent02 1 31 tm.mday (by omega) (by omega) (by omega),
    @getNumber_percent02 0 23 tm.hour (by omega) (by omega) (by omega),
    @getNumber_percent02 0 59 tm.min (by omega) (by omega) (by omega),
    @getNumber_percent02 0 61 tm.sec (by omega) (by omega) (by omega)]
  have htm : Tm.mk tm.sec.toNat tm.min.toNat tm.hour.toNat tm.mday.toNat ((tm.mon + 1).toNat - 1) (y - 1900) = tm := by
    cases tm
    simp only [Tm.mk.injEq] at *
    omega
  rw [htm]

/-- **What is printed is read back exactly in the years 0 to 9999**, but for
the last second of 1969. -/
theorem parse_format {t : Int} {bufSize : Nat} {text : CStr} (h : formatRfc3339Utc t bufSize = some text) :
    Parseable t ∧ parseRfc3339Utc text = some t ∨ ¬ Parseable t ∧ parseRfc3339Utc text = none := by
  obtain ⟨tm, htm, htext⟩ := Option.bind_eq_some_iff.mp h
  obtain ⟨hvalid, hyear⟩ := gmtime_valid htm
  have hlo := @le_year_of_time 0 t
  have hhi := @le_year_of_time 10000 t
  have hlo' : (Date.mk 0 1 1).toDays * 86400 = -62167219200 := by decide
  have hhi' : (Date.mk 10000 1 1).toDays * 86400 = 253402300800 := by decide
  rw [hlo', ← hyear] at hlo
  rw [hhi', ← hyear] at hhi
  unfold Parseable
  by_cases hin : 0 ≤ tm.year + 1900 ∧ tm.year + 1900 ≤ 9999
  · have hparse : parseRfc3339Utc text = if t = -1 then none else some t := by
      unfold parseRfc3339Utc
      rw [strptime_strftime htext hvalid hin]
      simp only [Option.bind_eq_bind, Option.bind_some, timegm_gmtime htm]
    rw [hparse]
    split
    · exact .inr ⟨by omega, rfl⟩
    · exact .inl ⟨by omega, rfl⟩
  · have hparse : parseRfc3339Utc text = none := by
      unfold parseRfc3339Utc
      rw [strftime_text htext, strptime_year (by omega)]
      rfl
    exact .inr ⟨by omega, hparse⟩

/-- A buffer of 32 bytes is enough. -/
theorem format_isSome {t : Int} : (formatRfc3339Utc t 32).isSome = true ↔ Formattable t := by
  rw [← gmtime_isSome]
  unfold formatRfc3339Utc
  cases htm : gmtime t with
  | none => rfl
  | some tm =>
    have hint : -2 ^ 31 ≤ tm.year ∧ tm.year < 2 ^ 31 := by
      unfold gmtime at htm
      simp only [Option.ite_none_right_eq_some, Option.some.injEq] at htm
      obtain ⟨hint, rfl⟩ := htm
      exact hint
    have hlen : (percentD (tm.year + 1900)).length ≤ 11 := percentD_length (by omega)
    unfold strftime percent02
    simp only [Option.bind_eq_bind, Option.bind_some, List.length_append, List.length_cons, List.length_nil]
    rw [if_pos (by omega)]
    rfl

end OpenDbsc
