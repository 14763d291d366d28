/-
What holds of manager calls in any interleaving.

A stored session is the last one written under its id (`last_written`), and
what is written goes back to a login. So whatever calls overlap, a bound session
was bound by a registration with a proof of possession (`pool_possesses`), a
session keeps its user and its birth and stays bound (`pool_identity`), and one
that was closed does not come back (`closed_stays_closed`).
-/
import OpenDbsc.ManagerPool
import OpenDbsc.Possession

namespace OpenDbsc

open Effects Records Prog

section

variable {ι : Type} [DecidableEq ι] {L : Extern} {cfg : ManagerConfig} {calls : ι → ManagerCall}
  {P : CallPool ι} {h : CallHistory ι} {t : Transition (CallPool ι) (Pool.Label Sys StoreSig ι)} {m m' : SessionMap}
  {s s' : Session}

omit [DecidableEq ι] in
theorem writes_call {i : ι} {o : StoreOp} {x : o.Ans} (ht : t.label = some (i, answered o x)) (hw : Puts t s) :
    (⟨o, x⟩ : Event StoreSig) = ⟨.create s, (0 : Int)⟩ ∨ (⟨o, x⟩ : Event StoreSig) = ⟨.update s, (0 : Int)⟩ := by
  rcases hw with ⟨j, hj⟩ | ⟨j, hj⟩
  · cases ht.symm.trans hj
    exact .inl rfl
  · cases ht.symm.trans hj
    exact .inr rfl

omit [DecidableEq ι] in
theorem writes_unique (hs : Puts t s) (hs' : Puts t s') : s = s' := by
  rcases hs with ⟨i, hi⟩ | ⟨i, hi⟩
  · rcases writes_call hi hs' with heq | heq
    · cases heq
      rfl
    · cases heq
  · rcases writes_call hi hs' with heq | heq
    · cases heq
    · cases heq
      rfl

/-- A session in the map is the one that was just written, or was there and is not overwritten. -/
theorem Happens.row (hh : Happens L cfg calls h m t.label m') (hs : s ∈ m'.rows) :
    Puts t s ∨ s ∈ m.rows ∧ ∀ s', Puts t s' → s'.id ≠ s.id := by
  generalize hl : t.label = l at hh
  cases hh with
  | runtime =>
    refine .inr ⟨hs, fun s' hw => ?_⟩
    rcases hw with ⟨j, hj⟩ | ⟨j, hj⟩ <;> cases hl.symm.trans hj
  | trimmed ho hatomic =>
    refine .inr ⟨hatomic.trims ho hs, fun s' hw => ?_⟩
    rcases hw with ⟨j, hj⟩ | ⟨j, hj⟩ <;> cases hl.symm.trans hj
  | @call i o x _ _ hatomic =>
    have hother : o.Trims → Puts t s ∨ s ∈ m.rows ∧ ∀ s', Puts t s' → s'.id ≠ s.id := by
      intro ho
      refine .inr ⟨hatomic.trims ho hs, fun s' hw => ?_⟩
      rcases writes_call hl hw with heq | heq
      · cases heq
        exact ho.elim
      · cases heq
        exact ho.elim
    cases o with
    | create s₁ =>
      obtain ⟨rfl, -, rfl⟩ | ⟨hcode, rfl⟩ := hatomic.create
      · rcases Table.mem_insert.mp hs with rfl | ⟨hs, hne⟩
        · exact .inl (.inl ⟨i, hl⟩)
        · refine .inr ⟨hs, fun s' hw => ?_⟩
          rcases writes_call hl hw with heq | heq
          · cases heq
            exact Ne.symm hne
          · cases heq
      · refine .inr ⟨hs, fun s' hw => ?_⟩
        rcases writes_call hl hw with heq | heq
        · cases heq
          exact absurd rfl hcode
        · cases heq
    | update s₁ =>
      obtain ⟨rfl, -, rfl⟩ | ⟨hcode, rfl⟩ := hatomic.update
      · rcases Table.mem_insert.mp hs with rfl | ⟨hs, hne⟩
        · exact .inl (.inr ⟨i, hl⟩)
        · refine .inr ⟨hs, fun s' hw => ?_⟩
          rcases writes_call hl hw with heq | heq
          · cases heq
          · cases heq
            exact Ne.symm hne
      · refine .inr ⟨hs, fun s' hw => ?_⟩
        rcases writes_call hl hw with heq | heq
        · cases heq
        · cases heq
          exact absurd rfl hcode
    | get id => exact hother trivial
    | delete id => exact hother trivial
    | getByUserId userId => exact hother trivial
    | deleteByUserId userId => exact hother trivial

/-! ## The last write -/

/-- `s` was written, and nothing under its id since. -/
def LastWritten (h : CallHistory ι) (s : Session) : Prop :=
  ∃ h₁ t h₂, h = h₁ ++ t :: h₂ ∧ Puts t s ∧ ∀ u ∈ h₂, ∀ s', Puts u s' → s'.id ≠ s.id

omit [DecidableEq ι] in
theorem LastWritten.snoc (hlast : LastWritten h s) (ht : ∀ s', Puts t s' → s'.id ≠ s.id) : LastWritten (h ++ [t]) s := by
  obtain ⟨h₁, u, h₂, rfl, hu, hsince⟩ := hlast
  refine ⟨h₁, u, h₂ ++ [t], by simp, hu, fun u' hu' => ?_⟩
  rcases List.mem_append.mp hu' with hu' | hu'
  · exact hsince u' hu'
  · rw [List.mem_singleton.mp hu']
    exact ht

omit [DecidableEq ι] in
theorem LastWritten.mem (hlast : LastWritten h s) : ∃ t ∈ h, Puts t s := by
  obtain ⟨h₁, t, h₂, rfl, ht, -⟩ := hlast
  exact ⟨t, List.mem_append_right _ List.mem_cons_self, ht⟩

theorem rows_last_written (hrun : CallRun L cfg calls h P) (hs : Supplied h) :
    ∃ m, P.shared.Represents m ∧ ∀ s ∈ m.rows, LastWritten h s := by
  refine CallRun.keeps (J := fun h m => ∀ s ∈ m.rows, LastWritten h s) hrun hs
    (fun s hs => absurd hs (Multiset.notMem_zero s)) fun _ hall hh s hs => ?_
  rcases hh.row hs with hw | ⟨hs, hother⟩
  · exact ⟨_, _, [], rfl, hw, fun _ hu => (List.not_mem_nil hu).elim⟩
  · exact (hall s hs).snoc hother

/-- **A stored session is the last one written under its id.** -/
theorem last_written (hrun : CallRun L cfg calls h P) (hs : Supplied h) (hmem : s ∈ P.shared.sessions) : LastWritten h s := by
  obtain ⟨m, hR, hall⟩ := rows_last_written hrun hs
  exact hall s (hR.lists.mem_iff.mp hmem)

/-- And so is one that is looked up. -/
theorem found_last_written {h₁ h₂ : CallHistory ι} (hrun : CallRun L cfg calls (h₁ ++ t :: h₂) P)
    (hs : Supplied (h₁ ++ t :: h₂)) {i : ι} {id : Option CStr} (ht : t.label = some (i, answered (.get id) (some s))) :
    LastWritten h₁ s ∧ s.id = id ∧ s ∈ t.pre.shared.sessions := by
  obtain ⟨hrun₁, hstep, -⟩ := Pool.transition hrun
  obtain ⟨m, hR, hall⟩ := rows_last_written hrun₁ hs.of_append
  rw [ht] at hstep
  obtain ⟨tr, hcall⟩ := hstep.answered
  obtain ⟨m', ⟨-, hatomic⟩, -⟩ := hR.atomic hcall
  rcases hatomic.get with ⟨s', heq, hl, -⟩ | ⟨hnone, -⟩
  · cases heq
    have hmem := Table.lookup_mem hl
    exact ⟨hall s hmem, Table.lookup_key hl, hR.lists.mem_iff.mpr hmem⟩
  · cases hnone

/-! ## Where what is written comes from -/

/-- A renewal writes a copy of a session found before, bound. -/
theorem Renewing.copies {call : ManagerCall} {tr : List (Event (Sys.sum StoreSig))} (hr : Renewing L cfg call tr s') :
    ∃ id s, call.target = some id ∧ answered (.get (some id)) (some s) ∈ tr ∧ s'.id = s.id ∧ s'.userId = s.userId ∧
      s'.createdAt = s.createdAt ∧ s'.state = .bound := by
  obtain ⟨hv, htarget, hget, haccept, -, rfl, -⟩ := hr
  obtain ⟨hid, huser, hcreated, hstate⟩ := ManagerCall.verdict_accept hv haccept
  obtain ⟨huser', hstate', -, -, -, hcreated'⟩ := Session.withTtl_keeps _ cfg.sessionTtlSeconds _
  exact ⟨_, _, htarget, hget, (Session.withTtl_id ..).trans hid, huser'.trans huser, hcreated'.trans hcreated,
    hstate'.trans hstate⟩

/-- A write is a login's or a renewal's. -/
theorem CallRun.write {h₁ h₂ : CallHistory ι} (hrun : CallRun L cfg calls (h₁ ++ t :: h₂) P)
    (hs : Supplied (h₁ ++ t :: h₂)) (hw : Puts t s) :
    (∃ i, t.label = some (i, answered (.create s) 0) ∧ Initiating cfg (calls i) (Pool.eventsOf i h₁) s) ∨
      ∃ i, t.label = some (i, answered (.update s) 0) ∧ Renewing L cfg (calls i) (Pool.eventsOf i h₁) s := by
  rcases hw with ⟨i, hi⟩ | ⟨i, hi⟩
  · cases CallRun.asks hrun hs hi with
    | initiates h => exact .inl ⟨i, hi, h⟩
  · cases CallRun.asks hrun hs hi with
    | renews h => exact .inr ⟨i, hi, h⟩

/-- The copy a renewal wrote back was found before, and written before that. -/
theorem found_before {h₁ : CallHistory ι} (hrun : CallRun L cfg calls h₁ P) (hs : Supplied h₁) {i : ι} {id : CStr}
    (hget : answered (.get (some id)) (some s) ∈ Pool.eventsOf i h₁) :
    ∃ g₁ u g₂, h₁ = g₁ ++ u :: g₂ ∧ u.label = some (i, answered (.get (some id)) (some s)) ∧ LastWritten g₁ s ∧
      s.id = some id := by
  obtain ⟨u, hu, hlabel⟩ := Pool.mem_eventsOf.mp hget
  obtain ⟨g₁, g₂, rfl⟩ := List.append_of_mem hu
  obtain ⟨hlast, hid, -⟩ := found_last_written hrun hs hlabel
  exact ⟨g₁, u, g₂, rfl, hlabel, hlast, hid⟩

/-- What holds of what logins write, and of a renewal's write if of its copy,
holds of all that is written. -/
theorem CallRun.written {K : CallHistory ι → Session → Prop} (hrun : CallRun L cfg calls h P) (hs : Supplied h)
    (hmono : ∀ {h t s}, K h s → K (h ++ [t]) s)
    (hcreate : ∀ {h t s i}, t.label = some (i, answered (.create s) 0) →
      Initiating cfg (calls i) (Pool.eventsOf i h) s → K (h ++ [t]) s)
    (hupdate : ∀ {h t s i}, t.label = some (i, answered (.update s) 0) → Renewing L cfg (calls i) (Pool.eventsOf i h) s →
      (∀ {id s₀}, answered (.get (some id)) (some s₀) ∈ Pool.eventsOf i h → s₀.id = some id ∧ K h s₀) → K (h ++ [t]) s) :
    ∀ t ∈ h, ∀ s, Puts t s → K h s := by
  induction hrun with
  | init => exact fun _ ht => (List.not_mem_nil ht).elim
  | @step h P l P' hrun hpool ih =>
    have ih := ih hs.of_append
    have hrun' : CallRun L cfg calls (h ++ [⟨P, l, P'⟩]) P' := hrun.step hpool
    intro t ht s hw
    rcases List.mem_append.mp ht with ht | ht
    · exact hmono (ih t ht s hw)
    · obtain rfl := List.mem_singleton.mp ht
      rcases CallRun.write hrun' hs hw with ⟨i, hc, hi⟩ | ⟨i, hu, hr⟩
      · exact hcreate hc hi
      · refine hupdate hu hr fun hget => ?_
        obtain ⟨g₁, u, g₂, rfl, -, hlast, hid⟩ := found_before hrun hs.of_append hget
        obtain ⟨w, hw, hwrites⟩ := hlast.mem
        exact ⟨hid, ih w (List.mem_append_left _ hw) _ hwrites⟩

/-! ## Identity -/

/-- The login that made the session. -/
def BornAs (h : CallHistory ι) (s : Session) : Prop :=
  ∃ t ∈ h, ∃ s₀, Makes t s₀ ∧ s₀.id = s.id ∧ s₀.userId = s.userId ∧ s₀.createdAt = s.createdAt

theorem born (hrun : CallRun L cfg calls h P) (hs : Supplied h) : ∀ t ∈ h, ∀ s, Puts t s → BornAs h s := by
  refine CallRun.written (K := BornAs) hrun hs ?_ ?_ ?_
  · intro h t s hborn
    obtain ⟨u, hu, hcreated⟩ := hborn
    exact ⟨u, List.mem_append_left _ hu, hcreated⟩
  · intro h t s i hcreates _
    exact ⟨t, List.mem_append_right _ List.mem_cons_self, s, ⟨i, hcreates⟩, rfl, rfl, rfl⟩
  · intro h t s i _ hr hfound
    obtain ⟨id, s₀, -, hget, hid, huser, hcreated, -⟩ := hr.copies
    obtain ⟨u, hu, s₁, hs₁, hid₁, huser₁, hcreated₁⟩ := (hfound hget).2
    exact ⟨u, List.mem_append_left _ hu, s₁, hs₁, hid₁.trans hid.symm, huser₁.trans huser.symm,
      hcreated₁.trans hcreated.symm⟩

omit [DecidableEq ι] in
/-- One login for each id. -/
theorem UniqueIds.create_unique (hids : UniqueIds h) {u : Transition (CallPool ι) (Pool.Label Sys StoreSig ι)} (ht : t ∈ h)
    (hu : u ∈ h) (hs : Makes t s) (hs' : Makes u s') (hid : s.id = s'.id) : s = s' := by
  obtain rfl := Distinct.eq hids ht hu (createdId_eq hs) (hid ▸ createdId_eq hs')
  exact writes_unique (.inl hs) (.inl hs')

omit [DecidableEq ι] in
theorem BornAs.same (hids : UniqueIds h) (hs : BornAs h s) (hs' : BornAs h s') (hid : s.id = s'.id) :
    s'.userId = s.userId ∧ s'.createdAt = s.createdAt := by
  obtain ⟨t, ht, s₀, hs₀, hid₀, huser, hcreated⟩ := hs
  obtain ⟨u, hu, s₁, hs₁, hid₁, huser', hcreated'⟩ := hs'
  obtain rfl := hids.create_unique ht hu hs₀ hs₁ (hid₀.trans (hid.trans hid₁.symm))
  exact ⟨huser'.symm.trans huser, hcreated'.symm.trans hcreated⟩

omit [DecidableEq ι] in
theorem BornAs.append (hs : BornAs h s) (h' : CallHistory ι) : BornAs (h ++ h') s := by
  obtain ⟨t, ht, hs⟩ := hs
  exact ⟨t, List.mem_append_left _ ht, hs⟩

omit [DecidableEq ι] in
/-- The last write is after a point of the history, or was it already then. -/
theorem LastWritten.of_append {h₁ h₂ : CallHistory ι} (hlast : LastWritten (h₁ ++ h₂) s) :
    (∃ g₁ t g₂, h₂ = g₁ ++ t :: g₂ ∧ Puts t s) ∨
      LastWritten h₁ s ∧ ∀ u ∈ h₂, ∀ s', Puts u s' → s'.id ≠ s.id := by
  obtain ⟨g₁, t, g₂, heq, ht, hsince⟩ := hlast
  rcases List.append_eq_append_iff.mp heq with ⟨c, rfl, rfl⟩ | ⟨c, rfl, hc⟩
  · exact .inl ⟨c, t, g₂, rfl, ht⟩
  · cases c with
    | nil =>
      rw [List.nil_append] at hc
      exact .inl ⟨[], t, g₂, hc.symm, ht⟩
    | cons u c =>
      obtain ⟨rfl, rfl⟩ := List.cons_eq_cons.mp hc
      exact .inr ⟨⟨g₁, t, c, rfl, ht, fun u hu => hsince u (List.mem_append_left _ hu)⟩,
        fun u hu => hsince u (List.mem_append_right _ hu)⟩

omit [DecidableEq ι] in
/-- There is one last write. -/
theorem LastWritten.unique (hlast : LastWritten h s) (hlast' : LastWritten h s') (hid : s'.id = s.id) : s' = s := by
  obtain ⟨h₁, t, h₂, rfl, ht, hsince⟩ := hlast
  obtain ⟨g₁, u, g₂, heq, hu, hsince'⟩ := hlast'
  rcases List.append_eq_append_iff.mp heq with ⟨c, rfl, hc⟩ | ⟨c, rfl, hc⟩
  · cases c with
    | nil =>
      obtain ⟨rfl, rfl⟩ := List.cons_eq_cons.mp hc
      exact writes_unique hu ht
    | cons v c =>
      obtain ⟨rfl, rfl⟩ := List.cons_eq_cons.mp hc
      exact absurd hid (hsince u (List.mem_append_right _ List.mem_cons_self) s' hu)
  · cases c with
    | nil =>
      obtain ⟨rfl, rfl⟩ := List.cons_eq_cons.mp hc
      exact writes_unique hu ht
    | cons v c =>
      obtain ⟨rfl, rfl⟩ := List.cons_eq_cons.mp hc
      exact absurd hid.symm (hsince' t (List.mem_append_right _ List.mem_cons_self) s ht)

/-- **A session keeps its user and its birth, and stays bound**, in any
interleaving of any calls in which no allocation of theirs fails and no id is
given out twice. -/
theorem pool_identity {h₁ h₂ : CallHistory ι} {P₁ P₂ : CallPool ι} (hrun₁ : CallRun L cfg calls h₁ P₁)
    (hrun₂ : Run (Pool.Step atomicStore Trimmed) P₁ h₂ P₂) (hs : Supplied (h₁ ++ h₂)) (hids : UniqueIds (h₁ ++ h₂))
    (hmem : s ∈ P₁.shared.sessions) (hmem' : s' ∈ P₂.shared.sessions) (hid : s'.id = s.id) :
    s'.userId = s.userId ∧ s'.createdAt = s.createdAt ∧ (s.state = .bound → s'.state = .bound) := by
  have hrun : CallRun L cfg calls (h₁ ++ h₂) P₂ := hrun₁.append hrun₂
  have hlast := last_written hrun₁ hs.of_append hmem
  have hlast' := last_written hrun hs hmem'
  obtain ⟨t, ht, hwt⟩ := hlast.mem
  obtain ⟨u, hu, hwu⟩ := hlast'.mem
  have hborn : BornAs h₁ s := born hrun₁ hs.of_append t ht s hwt
  obtain ⟨huser, hcreated⟩ := (hborn.append h₂).same hids (born hrun hs u hu s' hwu) hid.symm
  refine ⟨huser, hcreated, fun hbound => ?_⟩
  rcases hlast'.of_append with ⟨g₁, w, g₂, rfl, hw⟩ | ⟨hlast', -⟩
  · rw [← List.append_assoc] at hrun hs hids
    rcases CallRun.write hrun hs hw with ⟨i, hc, -⟩ | ⟨i, -, hr⟩
    · obtain ⟨v, hv, s₀, hs₀, hid₀, -⟩ := hborn
      exact absurd (hid₀.trans hid.symm) (hids.ne_of_before ⟨i, hc⟩ (List.mem_append_left _ hv) hs₀)
    · obtain ⟨-, -, -, -, -, -, -, hstate⟩ := hr.copies
      exact hstate
  · rw [hlast.unique hlast' hid]
    exact hbound

/-- A session that is registered, and then refreshed. -/
theorem pool_identity_refreshed : ∃ L cfg calls h₁ h₂, ∃ P₁ P₂ : CallPool (Fin 6), CallRun L cfg calls h₁ P₁ ∧
    Run (Pool.Step atomicStore Trimmed) P₁ h₂ P₂ ∧ ∃ s ∈ P₁.shared.sessions, ∃ s' ∈ P₂.shared.sessions,
      s.state = .bound ∧ s'.challenge ≠ s.challenge ∧ s'.userId = s.userId ∧ s'.createdAt = s.createdAt ∧
        s'.state = .bound := by
  have hfirst : (playTurns [(some 0, [0, 0]), (some 1, [1, 1, 1])] devicePool).map (fun r =>
      r.2.shared.sessions.map fun s => (s.state, s.challenge)) = some [(.bound, some (drawnChallenge 1))] := by
    decide +kernel
  have hsecond : ((playTurns [(some 0, [0, 0]), (some 1, [1, 1, 1])] devicePool).bind fun r =>
      (playTurns [(some 2, [3, 3, 3])] r.2).map fun r' =>
        (decide (UniqueIds (r.1 ++ r'.1)), r'.2.shared.sessions.map fun s => s.challenge)) =
        some (true, [some (drawnChallenge 2)]) := by
    decide +kernel
  have hsame : ((playTurns [(some 0, [0, 0]), (some 1, [1, 1, 1])] devicePool).bind fun r =>
      (playTurns [(some 2, [3, 3, 3])] r.2).map fun r' =>
        decide (∀ s ∈ r.2.shared.sessions, ∀ s' ∈ r'.2.shared.sessions, s'.id = s.id)) = some true := by
    decide +kernel
  obtain ⟨⟨h₁, P₁⟩, hplay₁, hfacts₁⟩ := Option.map_eq_some_iff.mp hfirst
  rw [hplay₁, Option.bind_some] at hsecond hsame
  obtain ⟨⟨h₂, P₂⟩, hplay₂, hfacts₂⟩ := Option.map_eq_some_iff.mp hsecond
  rw [hplay₂, Option.map_some, Option.some.injEq] at hsame
  simp only [Prod.mk.injEq] at hfacts₂
  obtain ⟨hids, hchallenges⟩ := hfacts₂
  obtain ⟨s, hs, hsfacts⟩ := List.mem_map.mp (hfacts₁ ▸ List.mem_cons_self)
  obtain ⟨s', hs', hchallenge'⟩ := List.mem_map.mp (hchallenges ▸ List.mem_cons_self)
  obtain ⟨hbound, hchallenge⟩ := Prod.ext_iff.mp hsfacts
  obtain ⟨hrun₁, hsupplied₁⟩ := run_playTurns hplay₁
  obtain ⟨hrun₂, hsupplied₂⟩ := run_playTurns hplay₂
  have hne : s'.challenge ≠ s.challenge := by
    rw [show s.challenge = _ from hchallenge, hchallenge']
    decide
  obtain ⟨huser, hcreated, hstays⟩ := pool_identity hrun₁ hrun₂ (hsupplied₁.append hsupplied₂) (of_decide_eq_true hids)
    hs hs' (of_decide_eq_true hsame s hs s' hs')
  exact ⟨_, _, _, h₁, h₂, P₁, P₂, hrun₁, hrun₂, s, hs, s', hs', hbound, hne, huser, hcreated, hstays hbound⟩

/-! ## Possession -/

/-- A registration in `h` that made the session what it is bound to: it found
the session active, with the challenge its token answers. -/
inductive BoundIn (L : Extern) (calls : ι → ManagerCall) (h : CallHistory ι) (s : Session) : Prop
  | mk {i id header token proof s₀ s₁ h₁ t h₂} : h = h₁ ++ t :: h₂ → t.label = some (i, answered (.update s₁) 0) →
      calls i = .register (some id) header → s.id = some id → nonEmpty header = some token →
      decodeProof L token = some proof → answered (.get (some id)) (some s₀) ∈ Pool.eventsOf i h₁ →
      s₀.state = .active → (∃ challenge, proof.challenge = some challenge ∧ s₀.challenge = some challenge) →
      s.publicKey = proof.jwk → s.algorithm = proof.algorithm → (Unsigned proof ∨ SignedUnderItsKey L token proof) →
      BoundIn L calls h s

theorem BoundIn.append (hb : BoundIn L calls h s) (h' : CallHistory ι) : BoundIn L calls (h ++ h') s := by
  obtain ⟨rfl, ht, hcall, hid, htoken, hproof, hget, hactive, hchallenge, hkey, halg, hsigned⟩ := hb
  exact ⟨by rw [List.append_assoc, List.cons_append], ht, hcall, hid, htoken, hproof, hget, hactive, hchallenge, hkey,
    halg, hsigned⟩

/-- A session with the same key is bound by the same registration. -/
theorem BoundIn.same (hb : BoundIn L calls h s) (hid : s'.id = s.id) (hkey : s'.publicKey = s.publicKey)
    (halg : s'.algorithm = s.algorithm) : BoundIn L calls h s' := by
  obtain ⟨hh, ht, hcall, hid', htoken, hproof, hget, hactive, hchallenge, hkey', halg', hsigned⟩ := hb
  exact ⟨hh, ht, hcall, hid.trans hid', htoken, hproof, hget, hactive, hchallenge, hkey.trans hkey', halg.trans halg',
    hsigned⟩

theorem nonEmpty_eq_some {text : Option CStr} {bytes : CStr} (h : nonEmpty text = some bytes) : text = some bytes :=
  (Option.filter_eq_some_iff.mp h).1

theorem written_bound (hrun : CallRun L cfg calls h P) (hs : Supplied h) :
    ∀ t ∈ h, ∀ s, Puts t s → s.state = .bound → BoundIn L calls h s := by
  refine CallRun.written (K := fun h s => s.state = .bound → BoundIn L calls h s) hrun hs ?_ ?_ ?_
  · exact fun hK hbound => (hK hbound).append _
  · intro h t s i _ hi hbound
    obtain ⟨-, -, rfl, -⟩ := hi
    rw [(Session.withTtl_keeps ..).2.1] at hbound
    cases hbound
  · intro h t s i hupdates hr hfound hbound
    obtain ⟨hv, htarget, hget, haccept, -, rfl, -⟩ := hr
    rename_i id s₀ s₁ bytes now
    obtain ⟨-, -, hkey, halg, -, -⟩ := Session.withTtl_keeps
      { s₁ with challenge := some (challengeOf bytes) } cfg.sessionTtlSeconds now
    have hid := Session.withTtl_id { s₁ with challenge := some (challengeOf bytes) } cfg.sessionTtlSeconds now
    obtain ⟨hid₀, hbound₀⟩ := hfound hget
    cases hc : calls i with
    | register cid header =>
      rw [hc] at hv htarget
      cases hv
      obtain ⟨hactive, token, proof, htoken, hproof, hacc, hchallenge, -, rfl⟩ := registerVerdict_eq_accept.mp haccept
      have hcid : cid = some id := nonEmpty_eq_some htarget
      subst hcid
      exact ⟨rfl, hupdates, hc, hid.trans hid₀, htoken, hproof, hget, hactive, hchallenge, hkey, halg,
        (registrationAccepted_iff.mp hacc).2⟩
    | refresh cid header =>
      rw [hc] at hv
      cases hv
      obtain ⟨hstate, -, -, -, -, -, -, -, -, rfl⟩ := refreshVerdict_eq_accept.mp haccept
      exact ((hbound₀ hstate).append _).same hid hkey halg
    | _ =>
      rw [hc] at hv
      cases hv

/-- **Proof of possession, whatever overlaps.** In any interleaving of any calls
whose allocations succeed, a bound session in the store was bound by a registration among them: it found
the session active with the challenge that its token answers, the session has
the token's key and algorithm, and the token was signed under that key, or said
`alg` none. -/
theorem pool_possesses (hrun : CallRun L cfg calls h P) (hs : Supplied h) (hmem : s ∈ P.shared.sessions)
    (hbound : s.state = .bound) : BoundIn L calls h s := by
  obtain ⟨t, ht, hw⟩ := (last_written hrun hs hmem).mem
  exact written_bound hrun hs t ht s hw hbound

theorem pool_possesses_registered : ∃ L cfg calls h, ∃ P : CallPool (Fin 6), CallRun L cfg calls h P ∧
    ∃ s ∈ P.shared.sessions, s.publicKey = some deviceJwk.render ∧ BoundIn L calls h s := by
  have hplay : (playTurns [(some 0, [0, 0]), (some 1, [1, 2, 1]), (some 2, [2, 2, 1])] devicePool).map
      (fun r => r.2.shared.sessions.map fun s => (s.state, s.publicKey)) = some [(.bound, some deviceJwk.render)] := by
    decide +kernel
  obtain ⟨h, P, hrun, hsupplied, hsessions⟩ := exists_turns hplay
  obtain ⟨s, hs, hfacts⟩ := List.mem_map.mp (hsessions ▸ List.mem_cons_self)
  simp only [Prod.mk.injEq] at hfacts
  exact ⟨_, _, _, h, P, hrun, s, hs, hfacts.2, pool_possesses hrun hsupplied hs hfacts.1⟩

/-! ## Closing -/

/-- The session was deleted by a close call. -/
def Drops (t : Transition (CallPool ι) (Pool.Label Sys StoreSig ι)) (id : CStr) : Prop :=
  ∃ i, t.label = some (i, answered (.delete (some id)) 0)

theorem Happens.deletes {id : CStr} (hh : Happens L cfg calls h m t.label m') (hdel : Drops t id) :
    m' = m.erase (some id) := by
  obtain ⟨i, hi⟩ := hdel
  rw [hi] at hh
  cases hh with
  | call _ hatomic => exact hatomic.delete_zero

theorem Happens.updates (hh : Happens L cfg calls h m t.label m') (hu : Renews t s) : m.lookup s.id ≠ none := by
  obtain ⟨i, hi⟩ := hu
  rw [hi] at hh
  cases hh with
  | call _ hatomic =>
    rcases hatomic.update with ⟨-, hl, -⟩ | ⟨hcode, -⟩
    · exact hl
    · exact absurd rfl hcode

/-- What is deleted had been made before. -/
theorem deleted_born {h₁ h₂ : CallHistory ι} (hrun : CallRun L cfg calls (h₁ ++ t :: h₂) P)
    (hs : Supplied (h₁ ++ t :: h₂)) {id : CStr} (hdel : Drops t id) : ∃ u ∈ h₁, ∃ s, Makes u s ∧ s.id = some id := by
  obtain ⟨i, hi⟩ := hdel
  cases CallRun.asks hrun hs hi with
  | closes _ _ hget =>
    obtain ⟨hrun₁, -, -⟩ := Pool.transition hrun
    obtain ⟨g₁, u, g₂, rfl, -, hlast, hid⟩ := found_before hrun₁ hs.of_append hget
    obtain ⟨w, hw, hwrites⟩ := hlast.mem
    obtain ⟨v, hv, s₀, hs₀, hid₀, -⟩ := born hrun₁ hs.of_append w (List.mem_append_left _ hw) _ hwrites
    exact ⟨v, hv, s₀, hs₀, hid₀.trans hid⟩

/-- Under an id that was deleted the map has nothing. -/
theorem deleted_absent (hrun : CallRun L cfg calls h P) (hs : Supplied h) (hids : UniqueIds h) :
    ∃ m, P.shared.Represents m ∧ ∀ id, (∃ t ∈ h, Drops t id) → m.lookup (some id) = none := by
  suffices hJ : ∃ m, P.shared.Represents m ∧
      (Supplied h → UniqueIds h → ∀ id, (∃ t ∈ h, Drops t id) → m.lookup (some id) = none) by
    obtain ⟨m, hR, hJ⟩ := hJ
    exact ⟨m, hR, hJ hs hids⟩
  refine CallRun.keeps (J := fun h m => Supplied h → UniqueIds h → ∀ id, (∃ t ∈ h, Drops t id) → m.lookup (some id) = none)
    hrun hs (fun _ _ id hdel => ?_) fun {h t m m'} hrun hJ hh hs hids id hdel => ?_
  · obtain ⟨t, ht, -⟩ := hdel
    cases ht
  · have hJ := hJ hs.of_append (Distinct.of_append hids) id
    obtain ⟨u, hu, hdel⟩ := hdel
    rcases List.mem_append.mp hu with hu | hu
    · have hnone := hJ ⟨u, hu, hdel⟩
      obtain ⟨hrun₁, -, -⟩ := Pool.transition hrun
      obtain ⟨h₁, h₂, rfl⟩ := List.append_of_mem hu
      obtain ⟨v, hv, s₀, hs₀, hid₀⟩ := deleted_born hrun₁ hs.of_append hdel
      refine Table.lookup_eq_none.mpr fun s hmem hid => ?_
      rcases hh.row hmem with (hc | hu) | ⟨hmem, -⟩
      · exact hids.ne_of_before hc (List.mem_append_left _ hv) hs₀ (hid₀.trans hid.symm)
      · exact hh.updates hu (hid ▸ hnone)
      · exact Table.lookup_eq_none.mp hnone s hmem hid
    · rw [List.mem_singleton.mp hu] at hdel
      rw [hh.deletes hdel]
      exact Table.lookup_erase_self m (some id)

/-- **What is closed stays closed**: where no id is given out twice and the
calls' allocations succeed, once a close call's deletion is made the store holds
nothing under the id, no call finds a session there, and none that
had found it before gets its write through. -/
theorem closed_stays_closed (hrun : CallRun L cfg calls h P) (hs : Supplied h) (hids : UniqueIds h) {i : ι}
    {sessionId : Option CStr} {reply : Reply} (hcall : calls i = .close sessionId) (hanswered : Replied P i reply)
    (hok : reply.Ok) : ∃ id h₁ t h₂, nonEmpty sessionId = some id ∧ h = h₁ ++ t :: h₂ ∧
      t.label = some (i, answered (.delete (some id)) 0) ∧ (∀ s ∈ P.shared.sessions, s.id ≠ some id) ∧
      ∀ u ∈ h₂, ∀ s, s.id = some id →
        (∀ j, u.label ≠ some (j, answered (.get (some id)) (some s))) ∧ ¬ Renews u s := by
  have hsteps := Pool.steps hrun i
  rw [hanswered] at hsteps
  have htrace : Trace ((ManagerCall.close sessionId).program L cfg) (Pool.eventsOf i h) reply := by
    rw [← hcall]
    exact steps_ret.mp hsteps
  obtain ⟨id, hid, hdel⟩ := granted_deletes htrace (hs.obeys i) hok
  obtain ⟨t, ht, hlabel⟩ := Pool.mem_eventsOf.mp hdel
  obtain ⟨h₁, h₂, rfl⟩ := List.append_of_mem ht
  refine ⟨id, h₁, t, h₂, hid, rfl, hlabel, fun s hmem hsid => ?_, fun u hu s hsid => ?_⟩
  · obtain ⟨m, hR, habsent⟩ := deleted_absent hrun hs hids
    exact Table.lookup_eq_none.mp (habsent id ⟨t, ht, i, hlabel⟩) s (hR.lists.mem_iff.mp hmem) hsid
  · obtain ⟨g₁, g₂, rfl⟩ := List.append_of_mem hu
    have hassoc : h₁ ++ t :: (g₁ ++ u :: g₂) = (h₁ ++ t :: g₁) ++ u :: g₂ := by simp
    rw [hassoc] at hrun hs hids
    have htmem : t ∈ h₁ ++ t :: g₁ := List.mem_append_right _ List.mem_cons_self
    obtain ⟨hrun₁, hstep, -⟩ := Pool.transition hrun
    obtain ⟨m, hR, habsent⟩ := deleted_absent hrun₁ hs.of_append (Distinct.of_append hids)
    have hnone := habsent id ⟨t, htmem, i, hlabel⟩
    constructor
    · intro j hget
      obtain ⟨-, hkey, hmem⟩ := found_last_written hrun hs hget
      exact Table.lookup_eq_none.mp hnone s (hR.lists.mem_iff.mp hmem) hkey
    · intro hu
      have hlast : (h₁ ++ t :: g₁) ++ u :: g₂ = ((h₁ ++ t :: g₁) ++ [u]) ++ g₂ := by simp
      have hsupplied : Supplied ((h₁ ++ t :: g₁) ++ [u]) := (hlast ▸ hs).of_append
      obtain ⟨m', hh, -⟩ := happens_of_step hrun₁ hsupplied hstep hR
      exact hh.updates hu (hsid ▸ hnone)

/-- A session is closed while it is registered: the registration is refused. -/
theorem closed_stays_closed_registering : ∃ L cfg calls h, ∃ P : CallPool (Fin 6), CallRun L cfg calls h P ∧
    calls 5 = .close (some zeroId) ∧ isGranted P 1 = false ∧ ∃ id h₁ t h₂, nonEmpty (some zeroId) = some id ∧
      h = h₁ ++ t :: h₂ ∧ t.label = some (5, answered (.delete (some id)) 0) ∧
      (∀ s ∈ P.shared.sessions, s.id ≠ some id) ∧ ∀ u ∈ h₂, ∀ s, s.id = some id →
        (∀ j, u.label ≠ some (j, answered (.get (some id)) (some s))) ∧ ¬ Renews u s := by
  have hplay : (playTurns [(some 0, [0, 0]), (some 1, [1, 5, 5, 1, 5, 1])] devicePool).map (fun r =>
      (decide (UniqueIds r.1), isGranted r.2 1, isGranted r.2 5)) = some (true, false, true) := by
    decide +kernel
  obtain ⟨h, P, hrun, hs, hfacts⟩ := exists_turns hplay
  simp only [Prod.mk.injEq] at hfacts
  obtain ⟨hids, hone, hfive⟩ := hfacts
  obtain ⟨reply, hreplied, hok⟩ := replied_of_isGranted hfive
  exact ⟨_, _, _, h, P, hrun, rfl, hone, closed_stays_closed hrun hs (of_decide_eq_true hids) rfl hreplied hok⟩

end

end OpenDbsc
