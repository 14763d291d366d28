/-
Named values one after another, each as `;name="value"`, the empty ones left out.

The text tells the values apart only by what they do not contain. `OnlyReading`
is what it takes: nothing follows the first value that is there, and that
value does not hold the delimiter and the name of a later one
(`onlyReading_iff`). Values without a double quote are always told apart from
each other (`text_injective`).
-/
import Mathlib.Data.List.Basic

namespace QuotedParameters

/-- A name and its value. -/
abbrev Parameter := List Char × List Char

/-- `;name="` -/
def opening (name : List Char) : List Char := ';' :: (name ++ ['=', '"'])

def piece (p : Parameter) : List Char := if p.2 = [] then [] else opening p.1 ++ p.2 ++ ['"']

def text (ps : List Parameter) : List Char := ps.flatMap piece

/-- The value has, inside it, the end of a value and a parameter called `name`. -/
def Imitates (value name : List Char) : Prop :=
  ∃ before after, before ≠ [] ∧ after ≠ [] ∧ value = before ++ '"' :: (opening name ++ after)

/-- One value at most is there, and it imitates none of those after it. -/
def OnlyReading : List Parameter → Prop
  | [] => True
  | p :: later => if p.2 = [] then OnlyReading later else ∀ q ∈ later, q.2 = [] ∧ ¬ Imitates p.2 q.1

/-- Names that are told apart where they stand. -/
structure Distinct (names : List (List Char)) : Prop where
  nodup : names.Nodup
  plain : ∀ name ∈ names, '=' ∉ name

section

variable {p q : Parameter} {ps qs : List Parameter}

@[simp] theorem text_nil : text [] = [] := rfl

@[simp] theorem text_cons (p : Parameter) (ps : List Parameter) : text (p :: ps) = piece p ++ text ps := rfl

theorem piece_absent (h : p.2 = []) : piece p = [] := if_pos h

theorem piece_present (h : p.2 ≠ []) : piece p = opening p.1 ++ p.2 ++ ['"'] := if_neg h

theorem text_absent (h : ∀ p ∈ ps, p.2 = []) : text ps = [] := by
  rw [text, List.flatMap_eq_nil_iff]
  exact fun p hp => piece_absent (h p hp)

/-- The first value that is there. -/
theorem text_present (h : ¬ ∀ p ∈ ps, p.2 = []) :
    ∃ before p after, ps = before ++ p :: after ∧ (∀ q ∈ before, q.2 = []) ∧ p.2 ≠ [] ∧
      text ps = opening p.1 ++ p.2 ++ '"' :: text after := by
  induction ps with
  | nil => exact absurd (by simp) h
  | cons p ps ih =>
    by_cases hp : p.2 = []
    · obtain ⟨before, q, after, rfl, hbefore, hq, htext⟩ := ih fun hall => h (by simpa [hp] using hall)
      refine ⟨p :: before, q, after, rfl, by simpa [hp] using hbefore, hq, ?_⟩
      rw [text_cons, piece_absent hp, List.nil_append, htext]
    · exact ⟨[], p, ps, rfl, by simp, hp, by rw [text_cons, piece_present hp]; simp⟩

/-- What has no delimiter in it ends at the first one. -/
theorem cut_inj {d : Char} {s s' rest rest' : List Char} (hs : d ∉ s) (hs' : d ∉ s')
    (h : s ++ d :: rest = s' ++ d :: rest') :
    s = s' ∧ rest = rest' := by
  have hscan : ∀ {t r : List Char}, d ∉ t → (t ++ d :: r).takeWhile (· ≠ d) = t := by
    intro t r ht
    have hne : ∀ c ∈ t, decide (c ≠ d) = true := fun c hc => decide_eq_true fun he => ht (he ▸ hc)
    rw [List.takeWhile_append_of_pos hne]
    simp
  have hsame : s = s' := by rw [← hscan (r := rest) hs, h, hscan hs']
  subst hsame
  exact ⟨rfl, by simpa using h⟩

theorem opening_inj {name name' rest rest' : List Char} (hn : '=' ∉ name) (hn' : '=' ∉ name')
    (h : opening name ++ rest = opening name' ++ rest') : name = name' ∧ rest = rest' := by
  have hcut : name ++ '=' :: '"' :: rest = name' ++ '=' :: '"' :: rest' := by simpa [opening] using h
  obtain ⟨hname, hrest⟩ := cut_inj hn hn' hcut
  exact ⟨hname, (List.cons.inj hrest).2⟩

theorem text_snoc (ps : List Parameter) : text ps = [] ∨ ∃ before, text ps = before ++ ['"'] := by
  induction ps with
  | nil => exact .inl rfl
  | cons p ps ih =>
    rw [text_cons]
    obtain htext | ⟨before, htext⟩ := ih
    · by_cases hp : p.2 = []
      · exact .inl (by rw [piece_absent hp, htext]; rfl)
      · exact .inr ⟨opening p.1 ++ p.2, by rw [piece_present hp, htext, List.append_nil]⟩
    · exact .inr ⟨piece p ++ before, by rw [htext, List.append_assoc]⟩

/-- A text that is not empty opens a value and ends in a quote. -/
theorem text_ends (h : ¬ ∀ p ∈ ps, p.2 = []) :
    ∃ p ∈ ps, ∃ after, after ≠ [] ∧ text ps = opening p.1 ++ after ++ ['"'] := by
  obtain ⟨before, p, after, rfl, -, hp, htext⟩ := text_present h
  refine ⟨p, by simp, ?_⟩
  obtain hafter | ⟨rest, hafter⟩ := text_snoc after
  · exact ⟨p.2, hp, by rw [htext, hafter]⟩
  · refine ⟨p.2 ++ '"' :: rest, by simp, ?_⟩
    rw [htext, hafter]
    simp

theorem mem_names_of_opening {name rest : List Char} (hplain : ∀ name ∈ ps.map Prod.fst, '=' ∉ name)
    (hname : '=' ∉ name)
    (h : text ps = opening name ++ rest) : name ∈ ps.map Prod.fst := by
  by_cases hall : ∀ p ∈ ps, p.2 = []
  · rw [text_absent hall] at h
    cases h
  · obtain ⟨p, hp, after, -, htext⟩ := text_ends hall
    have hmem := List.mem_map_of_mem (f := Prod.fst) hp
    rw [htext, List.append_assoc] at h
    rwa [(opening_inj (hplain _ hmem) hname h).1] at hmem

theorem eq_of_absent (hnames : qs.map Prod.fst = ps.map Prod.fst) (hp : ∀ p ∈ ps, p.2 = []) (hq : ∀ q ∈ qs, q.2 = []) :
    ps = qs := by
  induction ps generalizing qs with
  | nil => exact (List.map_eq_nil_iff.mp hnames).symm
  | cons p ps ih =>
    cases qs with
    | nil => cases hnames
    | cons q qs =>
      obtain ⟨hname, hnames⟩ := List.cons.inj hnames
      simp only [List.forall_mem_cons] at hp hq
      rw [ih hnames hp.2 hq.2, Prod.ext hname.symm (hp.1.trans hq.1.symm)]

/-- Two lists with the same names and text are the same up to a value that both have. -/
theorem text_aligned (hdistinct : Distinct (ps.map Prod.fst)) (hnames : qs.map Prod.fst = ps.map Prod.fst)
    (htext : text ps = text qs) :
    ps = qs ∨ ∃ before p q ps' qs', ps = before ++ p :: ps' ∧ qs = before ++ q :: qs' ∧ (∀ r ∈ before, r.2 = []) ∧
      p.2 ≠ [] ∧ q.2 ≠ [] ∧ q.1 = p.1 ∧ qs'.map Prod.fst = ps'.map Prod.fst ∧
      p.2 ++ '"' :: text ps' = q.2 ++ '"' :: text qs' := by
  induction ps generalizing qs with
  | nil => exact .inl (List.map_eq_nil_iff.mp hnames).symm
  | cons p ps ih =>
    cases qs with
    | nil => cases hnames
    | cons q qs =>
      obtain ⟨hname, hnames⟩ := List.cons.inj hnames
      obtain ⟨hfirst, hnodup⟩ := List.nodup_cons.mp hdistinct.nodup
      have hplain := fun name hmem => hdistinct.plain name (List.mem_cons_of_mem _ hmem)
      have hfresh := hdistinct.plain p.1 (by simp)
      -- a value that only one of them has would have to be a later one of the other
      have hlater : ∀ {rs rest}, rs.map Prod.fst = ps.map Prod.fst → text rs ≠ opening p.1 ++ rest :=
        fun {rs rest} hrs h =>
        hfirst (hrs ▸ mem_names_of_opening (hrs ▸ hplain) hfresh h)
      rw [text_cons, text_cons] at htext
      by_cases hp : p.2 = [] <;> by_cases hq : q.2 = []
      · rw [piece_absent hp, piece_absent hq, List.nil_append, List.nil_append] at htext
        have hpq : q = p := Prod.ext hname (hq.trans hp.symm)
        obtain rfl | ⟨before, p', q', ps', qs', rfl, rfl, hbefore, hrest⟩ := ih ⟨hnodup, hplain⟩ hnames htext
        · exact .inl (hpq ▸ rfl)
        · exact .inr ⟨p :: before, p', q', ps', qs', rfl, hpq ▸ rfl, by simpa [hp] using hbefore, hrest⟩
      · rw [piece_absent hp, piece_present hq, hname, List.nil_append, List.append_assoc, List.append_assoc] at htext
        exact absurd htext (hlater rfl)
      · rw [piece_present hp, piece_absent hq, List.nil_append, List.append_assoc, List.append_assoc] at htext
        exact absurd htext.symm (hlater hnames)
      · rw [piece_present hp, piece_present hq, hname] at htext
        simp only [List.append_assoc, List.append_cancel_left_eq, List.singleton_append] at htext
        exact .inr ⟨[], p, q, ps, qs, rfl, rfl, by simp, hp, hq, hname, hnames, htext⟩

theorem onlyReading_at {before later : List Parameter} (hbefore : ∀ r ∈ before, r.2 = []) (hp : p.2 ≠ []) :
    OnlyReading (before ++ p :: later) ↔ ∀ q ∈ later, q.2 = [] ∧ ¬ Imitates p.2 q.1 := by
  induction before with
  | nil => exact iff_of_eq (if_neg hp)
  | cons r before ih =>
    rw [List.forall_mem_cons] at hbefore
    rw [← ih hbefore.2]
    exact iff_of_eq (if_pos hbefore.1)

theorem onlyReading_absent (h : ∀ p ∈ ps, p.2 = []) : OnlyReading ps := by
  induction ps with
  | nil => trivial
  | cons p ps ih =>
    rw [List.forall_mem_cons] at h
    exact (iff_of_eq (if_pos h.1)).mpr (ih h.2)

/-- A list with no more than one reading is the only one with its text. -/
theorem OnlyReading.unique (h : OnlyReading ps) (hdistinct : Distinct (ps.map Prod.fst))
    (hnames : qs.map Prod.fst = ps.map Prod.fst) (htext : text ps = text qs) : ps = qs := by
  obtain heq | ⟨before, p, q, ps', qs', rfl, rfl, hbefore, hp, hq, hname, hnames, htail⟩ :=
    text_aligned hdistinct hnames htext
  · exact heq
  · rw [onlyReading_at hbefore hp] at h
    rw [text_absent fun r hr => (h r hr).1] at htail
    by_cases hall : ∀ r ∈ qs', r.2 = []
    · rw [text_absent hall] at htail
      rw [eq_of_absent hnames (fun r hr => (h r hr).1) hall, Prod.ext hname.symm (List.append_cancel_right htail)]
    · obtain ⟨r, hr, after, hafter, hends⟩ := text_ends hall
      obtain ⟨r', hr', hrname⟩ := List.mem_map.mp (hnames ▸ List.mem_map_of_mem (f := Prod.fst) hr)
      refine absurd ⟨q.2, after, hq, hafter, ?_⟩ (h r' hr').2
      rw [hends] at htail
      rw [hrname]
      exact List.append_cancel_right (htail.trans (by simp))

/-- Values without a quote are told apart from each other. -/
theorem text_injective (hdistinct : Distinct (ps.map Prod.fst)) (hnames : qs.map Prod.fst = ps.map Prod.fst)
    (hp : ∀ p ∈ ps, '"' ∉ p.2) (hq : ∀ q ∈ qs, '"' ∉ q.2) (htext : text ps = text qs) : ps = qs := by
  generalize hn : ps.length = n
  induction n using Nat.strongRecOn generalizing ps qs with
  | ind n ih =>
    obtain heq | ⟨before, p, q, ps', qs', rfl, rfl, -, -, -, hname, hnames', htail⟩ :=
      text_aligned hdistinct hnames htext
    · exact heq
    · obtain ⟨hvalue, hrest⟩ := cut_inj (hp p (by simp)) (hq q (by simp)) htail
      have hmap : ps'.map Prod.fst ⊆ (before ++ p :: ps').map Prod.fst := List.map_subset _ fun r hr => by simp [hr]
      have hdistinct' : Distinct (ps'.map Prod.fst) := by
        refine ⟨?_, fun name hmem => hdistinct.plain name (hmap hmem)⟩
        have hnodup := hdistinct.nodup
        simp only [List.map_append, List.map_cons, List.nodup_append, List.nodup_cons] at hnodup
        exact hnodup.2.1.2
      have htails : ps' = qs' := by
        refine ih ps'.length ?_ hdistinct' hnames' (fun r hr => hp r (by simp [hr]))
          (fun r hr => hq r (by simp [hr])) hrest rfl
        simp only [List.length_append, List.length_cons] at hn
        omega
      rw [htails, Prod.ext hname.symm hvalue]

/-- A value that imitates a later parameter, and that parameter itself. -/
theorem two_readings {before between after : List Parameter} {name name' value value' : List Char}
    (hbetween : ∀ p ∈ between, p.2 = []) (hvalue : value ≠ []) (hvalue' : value' ≠ []) :
    text (before ++ (name, value) :: (between ++ (name', value') :: after)) =
      text (before ++ (name, value ++ '"' :: (opening name' ++ value')) :: (between ++ (name', []) :: after)) := by
  have happend : ∀ ps qs, text (ps ++ qs) = text ps ++ text qs := fun _ _ => List.flatMap_append
  have hlong : value ++ '"' :: (opening name' ++ value') ≠ [] := by simp
  simp only [happend, text_cons, text_absent hbetween, List.nil_append]
  rw [piece_present hvalue, piece_present hvalue', piece_present hlong, piece_absent rfl]
  simp

/-- What the values of `qs` are made of. -/
def MadeOf (qs ps : List Parameter) : Prop :=
  ∀ q ∈ qs, ∀ c ∈ q.2, ∃ p ∈ ps, c ∈ p.2 ∨ c ∈ '"' :: opening p.1

/-- A list that is not the only reading of its text, and another. -/
theorem another_reading (h : ¬ OnlyReading ps) :
    ∃ qs, qs.map Prod.fst = ps.map Prod.fst ∧ text ps = text qs ∧ ps ≠ qs ∧ MadeOf qs ps := by
  obtain ⟨before, ⟨name, value⟩, later, rfl, hbefore, hvalue, -⟩ := text_present fun hall => h (onlyReading_absent hall)
  rw [onlyReading_at hbefore hvalue] at h
  by_cases hall : ∀ q ∈ later, q.2 = []
  · -- the value imitates a parameter that is not there
    simp only [not_forall, not_and, not_not] at h
    obtain ⟨⟨name', value'⟩, hq, h⟩ := h
    obtain ⟨b, a, hb, ha, rfl⟩ := h (hall _ hq)
    obtain rfl : value' = [] := hall _ hq
    obtain ⟨between, after, rfl⟩ := List.append_of_mem hq
    have hbetween : ∀ p ∈ between, p.2 = [] := fun p hp => hall p (by simp [hp])
    refine ⟨before ++ (name, b) :: (between ++ (name', a) :: after), by simp, (two_readings hbetween hb ha).symm,
      by simp, ?_⟩
    intro q hq c hc
    simp only [List.mem_append, List.mem_cons] at hq
    obtain hq | rfl | hq | rfl | hq := hq
    · exact ⟨q, by simp [hq], .inl hc⟩
    · exact ⟨_, List.mem_append_right _ List.mem_cons_self, .inl (List.mem_append_left _ hc)⟩
    · exact ⟨q, by simp [hq], .inl hc⟩
    · exact ⟨_, List.mem_append_right _ List.mem_cons_self,
        .inl (List.mem_append_right _ (List.mem_cons_of_mem _ (List.mem_append_right _ hc)))⟩
    · exact ⟨q, by simp [hq], .inl hc⟩
  · -- the value could hold the next one that is there
    obtain ⟨between, ⟨name', value'⟩, after, rfl, hbetween, hvalue', -⟩ := text_present hall
    refine ⟨before ++ (name, value ++ '"' :: (opening name' ++ value')) :: (between ++ (name', []) :: after), by simp,
      two_readings hbetween hvalue hvalue', by simp, ?_⟩
    intro q hq c hc
    simp only [List.mem_append, List.mem_cons] at hq
    obtain hq | rfl | hq | rfl | hq := hq
    · exact ⟨q, by simp [hq], .inl hc⟩
    · rcases List.mem_append.mp hc with hc | hc
      · exact ⟨(name, value), by simp, .inl hc⟩
      · rw [← List.cons_append, List.mem_append] at hc
        exact ⟨(name', value'), by simp, hc.symm⟩
    · exact ⟨q, by simp [hq], .inl hc⟩
    · cases hc
    · exact ⟨q, by simp [hq], .inl hc⟩

/-- **When a text has one reading.** Among the lists of its names, with values
of the characters that `ok` admits. -/
theorem onlyReading_iff {ok : Char → Prop} (hdistinct : Distinct (ps.map Prod.fst))
    (hok : ∀ p ∈ ps, ∀ c, c ∈ p.2 ∨ c ∈ '"' :: opening p.1 → ok c) :
    OnlyReading ps ↔ ∀ qs, qs.map Prod.fst = ps.map Prod.fst → (∀ q ∈ qs, ∀ c ∈ q.2, ok c) → text ps = text qs →
      ps = qs := by
  constructor
  · intro h qs hnames _ htext
    exact h.unique hdistinct hnames htext
  · intro h
    refine not_not.mp fun hmore => ?_
    obtain ⟨qs, hnames, htext, hne, hmade⟩ := another_reading hmore
    refine hne (h qs hnames (fun q hq c hc => ?_) htext)
    obtain ⟨p, hp, hc⟩ := hmade q hq c hc
    exact hok p hp c hc

end

end QuotedParameters
