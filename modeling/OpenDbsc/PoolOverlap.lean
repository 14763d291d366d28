/-
When two requests with a proof are both granted.

A request looks its session up, judges its copy and writes it back, so two of
them can both pass on the same challenge, or both bind the same session. They do
so only if they overlap: before either wrote, both had looked the session up and
found it with that challenge, or active (`accepted_twice_overlap`,
`registrations_overlap`). Requests of which one has written before the other
looks are granted at most once.
-/
import OpenDbsc.PoolSafety
import OpenDbsc.Replay

namespace OpenDbsc

open Effects Records Prog

section

variable {ι : Type} [DecidableEq ι] {L : Extern} {cfg : ManagerConfig} {calls : ι → ManagerCall}
  {P : CallPool ι} {h : CallHistory ι} {t : Transition (CallPool ι) (Pool.Label Sys StoreSig ι)} {s s' : Session}
  {i j : ι} {id : CStr}

/-- The call `i` has found its session, and found it as `Q` says. -/
def Found (Q : Session → Prop) (h : CallHistory ι) (i : ι) (id : CStr) : Prop :=
  ∃ t ∈ h, ∃ s, t.label = some (i, answered (.get (some id)) (some s)) ∧ Q s

/-- The call `i`, on the session `id`, is granted on the strength of a proof. -/
def Granted (calls : ι → ManagerCall) (P : CallPool ι) (i : ι) (id : CStr) : Prop :=
  (calls i).target = some id ∧ ((calls i).kind = .register ∨ (calls i).kind = .refresh) ∧
    ∃ reply, Replied P i reply ∧ reply.Ok

/-- Before either call wrote, both had found the session as `Q` says. -/
def Overlap (Q : Session → Prop) (h : CallHistory ι) (i j : ι) (id : CStr) : Prop :=
  ∀ h₁ t h₂ s, h = h₁ ++ t :: h₂ →
    (t.label = some (i, answered (.update s) 0) ∨ t.label = some (j, answered (.update s) 0)) →
      Found Q h₁ i id ∧ Found Q h₁ j id

/-- The call `i` accepts only sessions that are as `Q` says. -/
def AcceptsOnly (L : Extern) (cfg : ManagerConfig) (calls : ι → ManagerCall) (i : ι) (Q : Session → Prop) : Prop :=
  ∀ verdict s s₁, (calls i).verdict L cfg = some verdict → verdict s = .accept s₁ → Q s

/-- `j` judged a copy that was written at or after the write of `i`. -/
inductive Late (L : Extern) (cfg : ManagerConfig) (calls : ι → ManagerCall) (h : CallHistory ι) (i j : ι) (id : CStr) :
    Prop
  | mk {h₁ t h₂ s' q₁ w q₂ s verdict s₁} : h = h₁ ++ t :: h₂ → t.label = some (i, answered (.update s') 0) →
      h = (h₁ ++ q₁) ++ w :: q₂ → Puts w s → s.id = some id → (calls j).verdict L cfg = some verdict →
      verdict s = .accept s₁ → Late L cfg calls h i j id

/-- The 32 bytes a transition drew for a challenge, or that there were none. -/
def drawnOf : Event (Sys.sum StoreSig) → Option (Option { b : List UInt8 // b.length = 32 })
  | ⟨.inl (.getentropy 32), bytes⟩ => some bytes
  | _ => none

def drawn (t : Transition (CallPool ι) (Pool.Label Sys StoreSig ι)) :
    Option (Option { b : List UInt8 // b.length = 32 }) :=
  t.label.bind fun l => drawnOf l.2

/-- No challenge is drawn twice. -/
def FreshChallenges (h : CallHistory ι) : Prop := Distinct drawn h

instance (h : CallHistory ι) : Decidable (FreshChallenges h) := inferInstanceAs (Decidable (Distinct drawn h))

/-! ## One write after another -/

/-- A write's challenge was drawn by the call that makes it, which had written nothing. -/
theorem CallRun.draws {h₁ h₂ : CallHistory ι} (hrun : CallRun L cfg calls (h₁ ++ t :: h₂) P)
    (hs : Supplied (h₁ ++ t :: h₂)) (hw : Puts t s) : ∃ i e bytes, t.label = some (i, e) ∧ IsWrite e.op ∧
      Draws (Pool.eventsOf i h₁) bytes ∧ Unwritten (Pool.eventsOf i h₁) ∧ s.challenge = some (challengeOf bytes) := by
  rcases CallRun.write hrun hs hw with ⟨i, hi, hinit⟩ | ⟨i, hi, hrenew⟩
  · obtain ⟨-, hdraws, rfl, hquiet⟩ := hinit
    exact ⟨i, _, _, hi, trivial, hdraws, hquiet, (Session.withTtl_keeps ..).2.2.2.2.1⟩
  · obtain ⟨-, -, -, -, hdraws, rfl, hquiet⟩ := hrenew
    exact ⟨i, _, _, hi, trivial, hdraws, hquiet, (Session.withTtl_keeps ..).2.2.2.2.1⟩

/-- **No two writes leave the same challenge.** -/
theorem challenge_ne_of_before {h₁ h₂ : CallHistory ι} {w : Transition (CallPool ι) (Pool.Label Sys StoreSig ι)}
    (hrun : CallRun L cfg calls (h₁ ++ t :: h₂) P) (hs : Supplied (h₁ ++ t :: h₂))
    (hfresh : FreshChallenges (h₁ ++ t :: h₂)) (hw : w ∈ h₁) (hwrites : Puts w s) (hwrites' : Puts t s') :
    s.challenge ≠ s'.challenge := by
  intro heq
  obtain ⟨i, e, bytes, hi, hwrite, hdraws, hquiet, hc⟩ := CallRun.draws hrun hs hwrites'
  obtain ⟨hrun₁, -, -⟩ := Pool.transition hrun
  obtain ⟨a, b, rfl⟩ := List.append_of_mem hw
  obtain ⟨j, e', bytes', hj, hwrite', hdraws', -, hc'⟩ := CallRun.draws hrun₁ hs.of_append hwrites
  rw [hc, hc', Option.some.injEq] at heq
  obtain rfl := challengeOf_injective heq
  by_cases hij : i = j
  · subst hij
    exact hquiet e' (Pool.mem_eventsOf.mpr ⟨w, hw, hj⟩) hwrite'
  · obtain ⟨u, hu, hlabel⟩ := Pool.mem_eventsOf.mp hdraws
    obtain ⟨v, hv, hlabel'⟩ := Pool.mem_eventsOf.mp hdraws'
    have hdrawn : ∀ {u : Transition (CallPool ι) (Pool.Label Sys StoreSig ι)} {i},
        u.label = some (i, ⟨.inl (.getentropy 32), bytes'⟩) → drawn u = some bytes' := by
      intro u i hlabel
      simp [drawn, hlabel, drawnOf]
    have hsame : u = v := Distinct.eq hfresh (List.mem_append_left _ hu)
      (List.mem_append_left _ (List.mem_append_left _ hv)) (hdrawn hlabel) (hdrawn hlabel')
    rw [hsame] at hlabel
    cases hlabel.symm.trans hlabel'
    exact hij rfl

/-! ## One request after another -/

/-- A granted request has written, after it found its session. -/
theorem Granted.writes (hi : Granted calls P i id) (hrun : CallRun L cfg calls h P) (hs : Supplied h) :
    ∃ h₁ t h₂ s', h = h₁ ++ t :: h₂ ∧ t.label = some (i, answered (.update s') 0) := by
  obtain ⟨-, hkind, reply, hreplied, hok⟩ := hi
  have hsteps := Pool.steps hrun i
  rw [hreplied] at hsteps
  obtain ⟨s', hs'⟩ := granted_updates (steps_ret.mp hsteps) (hs.obeys i) hok hkind
  obtain ⟨t, ht, hlabel⟩ := Pool.mem_eventsOf.mp hs'
  obtain ⟨h₁, h₂, rfl⟩ := List.append_of_mem ht
  exact ⟨h₁, t, h₂, s', rfl, hlabel⟩

/-- The write of a request on `id`: the copy it judged was found, and had been written. -/
theorem CallRun.judged {h₁ h₂ : CallHistory ι} (hrun : CallRun L cfg calls (h₁ ++ t :: h₂) P)
    (hs : Supplied (h₁ ++ t :: h₂)) (ht : t.label = some (i, answered (.update s') 0))
    (htarget : (calls i).target = some id) :
    s'.id = some id ∧ ∃ g₁ u g₂ s verdict s₁, h₁ = g₁ ++ u :: g₂ ∧
      u.label = some (i, answered (.get (some id)) (some s)) ∧ LastWritten g₁ s ∧ s.id = some id ∧
      (calls i).verdict L cfg = some verdict ∧ verdict s = .accept s₁ := by
  cases CallRun.asks hrun hs ht with
  | renews hr =>
    obtain ⟨id', s₀, htarget', hget₀, hid', -⟩ := hr.copies
    obtain ⟨hv, htarget'', hget, haccept, -, -, -⟩ := hr
    cases htarget.symm.trans htarget'
    cases htarget.symm.trans htarget''
    obtain ⟨hrun₁, -, -⟩ := Pool.transition hrun
    obtain ⟨-, -, -, -, -, -, hid₀⟩ := found_before hrun₁ hs.of_append hget₀
    obtain ⟨g₁, u, g₂, heq, hlabel, hlast, hid⟩ := found_before hrun₁ hs.of_append hget
    exact ⟨hid'.trans hid₀, g₁, u, g₂, _, _, _, heq, hlabel, hlast, hid, hv, haccept⟩

/-- A granted request has found its session before another wrote, or judged a copy written since. -/
theorem found_or_late {Q : Session → Prop} {h₁ h₂ : CallHistory ι} (hQ : AcceptsOnly L cfg calls j Q)
    (hrun : CallRun L cfg calls (h₁ ++ t :: h₂) P) (hs : Supplied (h₁ ++ t :: h₂))
    (ht : t.label = some (i, answered (.update s') 0)) (htarget : (calls i).target = some id)
    (hj : Granted calls P j id) : Found Q h₁ j id ∨ Late L cfg calls (h₁ ++ t :: h₂) i j id := by
  obtain ⟨a, v, b, sj, heq, hv⟩ := hj.writes hrun hs
  rw [heq] at hrun hs
  obtain ⟨-, g₁, u, g₂, s, verdict, s₁, rfl, hu, hlast, hid, hverdict, haccept⟩ := CallRun.judged hrun hs hv hj.1
  have hsid : s'.id = some id := by
    rw [← heq] at hrun hs
    exact (CallRun.judged hrun hs ht htarget).1
  have heq' : h₁ ++ t :: h₂ = g₁ ++ u :: (g₂ ++ v :: b) := by simpa using heq
  rcases List.append_eq_append_iff.mp heq' with ⟨c, rfl, hc⟩ | ⟨c, rfl, hc⟩
  · cases c with
    | nil =>
      obtain ⟨rfl, -⟩ := List.cons_eq_cons.mp hc
      cases ht.symm.trans hu
    | cons t' c =>
      obtain ⟨rfl, hrest⟩ := List.cons_eq_cons.mp hc
      right
      rcases hlast.of_append with ⟨k₁, w, k₂, hsplit, hw⟩ | ⟨-, hsince⟩
      · have hsplit' : h₁ ++ t :: h₂ = (h₁ ++ k₁) ++ w :: (k₂ ++ u :: (g₂ ++ v :: b)) := by
          rw [heq', hsplit]
          simp
        exact ⟨rfl, ht, hsplit', hw, hid, hverdict, haccept⟩
      · exact absurd (hsid.trans hid.symm) (hsince t List.mem_cons_self s' (.inr ⟨i, ht⟩))
  · cases c with
    | nil =>
      obtain ⟨rfl, -⟩ := List.cons_eq_cons.mp hc
      cases ht.symm.trans hu
    | cons u' c =>
      obtain ⟨rfl, -⟩ := List.cons_eq_cons.mp hc
      exact .inl ⟨u, List.mem_append_right _ List.mem_cons_self, s, hu, hQ _ _ _ hverdict haccept⟩

theorem Found.of_update {Q : Session → Prop} {h₁ h₂ : CallHistory ι} (hQ : AcceptsOnly L cfg calls i Q)
    (hrun : CallRun L cfg calls (h₁ ++ t :: h₂) P) (hs : Supplied (h₁ ++ t :: h₂))
    (ht : t.label = some (i, answered (.update s') 0)) (htarget : (calls i).target = some id) : Found Q h₁ i id := by
  obtain ⟨-, g₁, u, g₂, s, verdict, s₁, rfl, hu, -, -, hverdict, haccept⟩ := CallRun.judged hrun hs ht htarget
  exact ⟨u, List.mem_append_right _ List.mem_cons_self, s, hu, hQ _ _ _ hverdict haccept⟩

/-- Two requests overlap if neither judged a copy written since the other's write. -/
theorem overlap_of_not_late {Q : Session → Prop} (hQi : AcceptsOnly L cfg calls i Q) (hQj : AcceptsOnly L cfg calls j Q)
    (hrun : CallRun L cfg calls h P) (hs : Supplied h) (hi : Granted calls P i id) (hj : Granted calls P j id)
    (hij : ¬ Late L cfg calls h i j id) (hji : ¬ Late L cfg calls h j i id) : Overlap Q h i j id := by
  intro h₁ t h₂ s heq ht
  subst heq
  rcases ht with ht | ht
  · exact ⟨.of_update hQi hrun hs ht hi.1, (found_or_late hQj hrun hs ht hi.1 hj).resolve_right hij⟩
  · exact ⟨(found_or_late hQi hrun hs ht hj.1 hi).resolve_right hji, .of_update hQj hrun hs ht hj.1⟩

/-! ## One challenge, two requests -/

/-- What is written at or after a request's write has not the challenge the request answered. -/
theorem not_late_of_answers (hrun : CallRun L cfg calls h P) (hs : Supplied h) (hfresh : FreshChallenges h)
    (htarget : (calls i).target = some id) (hsame : (calls i).answers L = (calls j).answers L) :
    ¬ Late L cfg calls h i j id := by
  intro hlate
  obtain ⟨heq, ht, hsplit, hw, -, hverdict, haccept⟩ := hlate
  subst heq
  obtain ⟨-, g₁, u, g₂, s₀, verdict₀, s₁, rfl, -, hlast, -, hverdict₀, haccept₀⟩ := CallRun.judged hrun hs ht htarget
  obtain ⟨challenge₀, hanswers₀, hchallenge₀⟩ := ManagerCall.verdict_answers hverdict₀ haccept₀
  obtain ⟨challenge, hanswers, hchallenge⟩ := ManagerCall.verdict_answers hverdict haccept
  obtain ⟨w₀, hw₀, hwrites₀⟩ := hlast.mem
  rw [hsplit] at hrun hs hfresh
  refine challenge_ne_of_before hrun hs hfresh (w := w₀) ?_ hwrites₀ hw ?_
  · exact List.mem_append_left _ (List.mem_append_left _ hw₀)
  · rw [hchallenge₀, hchallenge, ← hanswers₀, ← hanswers, hsame]

omit [DecidableEq ι] in
/-- A call accepts only a session with the challenge it answers. -/
theorem acceptsOnly_answers {challenge : Option CStr} (hanswers : (calls i).answers L = challenge) :
    AcceptsOnly L cfg calls i fun s => s.challenge = challenge := by
  intro verdict s s₁ hverdict haccept
  obtain ⟨c, hc, hs⟩ := ManagerCall.verdict_answers hverdict haccept
  rw [hs, ← hanswers, hc]

/-- **One challenge is accepted twice only from requests that overlap.** In any
interleaving of any calls in which no allocation of theirs fails and no
challenge is drawn twice, two that are granted on a session with the same
challenge had both found the session, with this challenge, before either wrote. -/
theorem accepted_twice_overlap (hrun : CallRun L cfg calls h P) (hs : Supplied h) (hfresh : FreshChallenges h)
    (hi : Granted calls P i id) (hj : Granted calls P j id) (hsame : (calls i).answers L = (calls j).answers L) :
    Overlap (fun s => s.challenge = (calls i).answers L) h i j id :=
  overlap_of_not_late (acceptsOnly_answers rfl) (acceptsOnly_answers hsame.symm) hrun hs hi hj
    (not_late_of_answers hrun hs hfresh hi.1 hsame)
    (not_late_of_answers hrun hs hfresh hj.1 hsame.symm)

/-- Two refreshes find the session with one challenge, and both are granted. -/
theorem accepted_twice_overlap_refreshes : ∃ L cfg calls h, ∃ P : CallPool (Fin 6), CallRun L cfg calls h P ∧
    Granted calls P 3 zeroId ∧ Granted calls P 4 zeroId ∧
      Overlap (fun s => s.challenge = (calls 3).answers L) h 3 4 zeroId := by
  have hplay : (playTurns [(some 0, [0, 0]), (some 1, [1, 1, 1]), (some 2, [3, 4, 3, 3]), (some 3, [4, 4])]
      devicePool).map (fun r => (decide (FreshChallenges r.1), isGranted r.2 3, isGranted r.2 4)) =
        some (true, true, true) := by
    decide +kernel
  obtain ⟨h, P, hrun, hs, hfacts⟩ := exists_turns hplay
  simp only [Prod.mk.injEq] at hfacts
  obtain ⟨hfresh, hthree, hfour⟩ := hfacts
  have hi : Granted (loginCalls (registrationToken (drawnChallenge 0)) (refreshToken (drawnChallenge 1))) P 3 zeroId :=
    ⟨by decide, .inr rfl, replied_of_isGranted hthree⟩
  have hj : Granted (loginCalls (registrationToken (drawnChallenge 0)) (refreshToken (drawnChallenge 1))) P 4 zeroId :=
    ⟨by decide, .inr rfl, replied_of_isGranted hfour⟩
  exact ⟨_, _, _, h, P, hrun, hi, hj, accepted_twice_overlap hrun hs (of_decide_eq_true hfresh) hi hj rfl⟩

/-! ## One session, two registrations -/

/-- What is written at or after a request's write is bound. -/
theorem not_late_of_register (hrun : CallRun L cfg calls h P) (hs : Supplied h) (hids : UniqueIds h)
    (htarget : (calls i).target = some id) (hkind : (calls j).kind = .register) : ¬ Late L cfg calls h i j id := by
  intro hlate
  obtain ⟨heq, ht, hsplit, hw, hid, hverdict, haccept⟩ := hlate
  subst heq
  obtain ⟨-, g₁, u, g₂, s₀, -, -, rfl, -, hlast, hid₀, -, -⟩ := CallRun.judged hrun hs ht htarget
  have hactive := ManagerCall.verdict_register hverdict hkind haccept
  rw [hsplit] at hrun hs hids
  rcases CallRun.write hrun hs hw with ⟨k, hc, -⟩ | ⟨k, -, hr⟩
  · obtain ⟨hrun₁, -, -⟩ := Pool.transition hrun
    obtain ⟨v, hv, hwrites⟩ := hlast.mem
    obtain ⟨w₁, hw₁, s₂, hs₂, hid₂, -⟩ := born hrun₁ hs.of_append v
      (List.mem_append_left _ (List.mem_append_left _ hv)) _ hwrites
    exact hids.ne_of_before ⟨k, hc⟩ hw₁ hs₂ (hid₂.trans (hid₀.trans hid.symm))
  · obtain ⟨-, -, -, -, -, -, -, hbound⟩ := hr.copies
    rw [hbound] at hactive
    cases hactive

/-- **A session is bound twice only by registrations that overlap**: in any
interleaving of any calls in which no allocation of theirs fails and no id is
given out twice, two that are granted on it had both found it, active, before
either wrote. -/
theorem registrations_overlap (hrun : CallRun L cfg calls h P) (hs : Supplied h) (hids : UniqueIds h)
    (hi : Granted calls P i id) (hj : Granted calls P j id) (hkind : (calls i).kind = .register)
    (hkind' : (calls j).kind = .register) : Overlap (fun s => s.state = .active) h i j id :=
  overlap_of_not_late (fun _ _ _ hv ha => ManagerCall.verdict_register hv hkind ha)
    (fun _ _ _ hv ha => ManagerCall.verdict_register hv hkind' ha) hrun hs hi hj
    (not_late_of_register hrun hs hids hi.1 hkind') (not_late_of_register hrun hs hids hj.1 hkind)

/-- Two registrations find the session active, and both are granted. -/
theorem registrations_overlap_twice : ∃ L cfg calls h, ∃ P : CallPool (Fin 6), CallRun L cfg calls h P ∧
    Granted calls P 1 zeroId ∧ Granted calls P 2 zeroId ∧ Overlap (fun s => s.state = .active) h 1 2 zeroId := by
  have hplay : (playTurns [(some 0, [0, 0]), (some 1, [1, 2, 1, 1]), (some 2, [2, 2])] devicePool).map
      (fun r => (decide (UniqueIds r.1), isGranted r.2 1, isGranted r.2 2)) = some (true, true, true) := by
    decide +kernel
  obtain ⟨h, P, hrun, hs, hfacts⟩ := exists_turns hplay
  simp only [Prod.mk.injEq] at hfacts
  obtain ⟨hids, hone, htwo⟩ := hfacts
  have hi : Granted (loginCalls (registrationToken (drawnChallenge 0)) (refreshToken (drawnChallenge 1))) P 1 zeroId :=
    ⟨by decide, .inl rfl, replied_of_isGranted hone⟩
  have hj : Granted (loginCalls (registrationToken (drawnChallenge 0)) (refreshToken (drawnChallenge 1))) P 2 zeroId :=
    ⟨by decide, .inl rfl, replied_of_isGranted htwo⟩
  exact ⟨_, _, _, h, P, hrun, hi, hj, registrations_overlap hrun hs (of_decide_eq_true hids) hi hj rfl rfl⟩

end

end OpenDbsc
