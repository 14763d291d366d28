/-
Manager calls in flight at once on one store.

Each call is a thread: its operations on the runtime and its calls on the
store come one at a time, between those of the others, in any order. The store
carries out each of its calls whole, or refuses it (`atomicStore`), and the
application may use the store's lookups, listings and deletions meanwhile.

`Happens` is what one operation can do to the map of sessions, and
`CallRun.keeps` the induction: the theorems about interleavings are case
analyses of it.
-/
import OpenDbsc.AtomicStore
import OpenDbsc.Client
import OpenDbsc.ManagerAsks

namespace OpenDbsc

open Effects Records Prog

/-- A call that writes nothing. -/
def StoreOp.Trims : StoreOp → Prop
  | .create _ => False
  | .update _ => False
  | _ => True

/-- The application uses the store, and writes nothing. -/
def Trimmed (ms ms' : MemoryStore) : Prop := ∃ o x, StoreOp.Trims o ∧ atomicStore o ms [] x ms'

section

variable {ι : Type} [DecidableEq ι]

abbrev CallPool (ι : Type) := Pool Sys StoreSig (fun _ : ι => Reply) MemoryStore

abbrev CallHistory (ι : Type) := List (Transition (CallPool ι) (Pool.Label Sys StoreSig ι))

/-- The calls, on an empty store. -/
def callPool (L : Extern) (cfg : ManagerConfig) (calls : ι → ManagerCall) : CallPool ι :=
  ⟨fun i => (calls i).program L cfg, MemoryStore.empty⟩

/-- Any interleaving of the calls. -/
abbrev CallRun (L : Extern) (cfg : ManagerConfig) (calls : ι → ManagerCall) :=
  Run (Pool.Step atomicStore Trimmed) (callPool L cfg calls)

/-- Every allocation of the manager succeeds. -/
def Supplied (h : CallHistory ι) : Prop :=
  ∀ t ∈ h, ∀ i e, t.label = some (i, e) → ∀ x, onEnv allocOk e.op = some x → e.ans = x

/-- The call `i` is over and was answered `reply`. -/
def Replied (P : CallPool ι) (i : ι) (reply : Reply) : Prop := P.threads i = .ret reply

/-! ## What a transition wrote -/

def Makes (t : Transition (CallPool ι) (Pool.Label Sys StoreSig ι)) (s : Session) : Prop :=
  ∃ i, t.label = some (i, answered (.create s) 0)

def Renews (t : Transition (CallPool ι) (Pool.Label Sys StoreSig ι)) (s : Session) : Prop :=
  ∃ i, t.label = some (i, answered (.update s) 0)

def Puts (t : Transition (CallPool ι) (Pool.Label Sys StoreSig ι)) (s : Session) : Prop := Makes t s ∨ Renews t s

def createdIdOf : Event (Sys.sum StoreSig) → Option (Option CStr)
  | ⟨.inr (.create s), code⟩ => if code = (0 : Int) then some s.id else none
  | _ => none

/-- The id of the session a transition created. -/
def createdId (t : Transition (CallPool ι) (Pool.Label Sys StoreSig ι)) : Option (Option CStr) :=
  t.label.bind fun l => createdIdOf l.2

/-- No id is given to two sessions. -/
def UniqueIds (h : CallHistory ι) : Prop := Distinct createdId h

instance (h : CallHistory ι) : Decidable (UniqueIds h) := inferInstanceAs (Decidable (Distinct createdId h))

omit [DecidableEq ι] in
theorem createdId_eq {t : Transition (CallPool ι) (Pool.Label Sys StoreSig ι)} {s : Session} (ht : Makes t s) :
    createdId t = some s.id := by
  obtain ⟨i, hi⟩ := ht
  simp [createdId, hi, createdIdOf]

omit [DecidableEq ι] in
theorem UniqueIds.ne_of_before {h₁ h₂ : CallHistory ι} {t u : Transition (CallPool ι) (Pool.Label Sys StoreSig ι)}
    {s s' : Session} (hids : UniqueIds (h₁ ++ t :: h₂)) (hs : Makes t s) (hu : u ∈ h₁) (hs' : Makes u s') :
    s'.id ≠ s.id := by
  intro hid
  exact Distinct.ne_of_before hids hu (createdId_eq hs) (hid ▸ createdId_eq hs')

omit [DecidableEq ι] in
theorem Supplied.of_append {h₁ h₂ : CallHistory ι} (h : Supplied (h₁ ++ h₂)) : Supplied h₁ :=
  fun t ht => h t (List.mem_append_left _ ht)

omit [DecidableEq ι] in
theorem Supplied.append {h₁ h₂ : CallHistory ι} (hs₁ : Supplied h₁) (hs₂ : Supplied h₂) : Supplied (h₁ ++ h₂) :=
  fun t ht => (List.mem_append.mp ht).elim (hs₁ t) (hs₂ t)

theorem Supplied.obeys {h : CallHistory ι} (hs : Supplied h) (i : ι) : Obeys (onEnv allocOk) (Pool.eventsOf i h) := by
  intro e he x hx
  obtain ⟨t, ht, hlabel⟩ := Pool.mem_eventsOf.mp he
  exact hs t ht i e hlabel x hx

end

/-! ## The map of sessions -/

/-- A code of 0 says that the session is deleted. -/
theorem SessionMap.Atomic.delete_zero {m m' : SessionMap} {id : Option CStr} (h : m.Atomic (.delete id) (0 : Int) m') :
    m' = m.erase id := by
  rcases h with ⟨now, hans⟩ | ⟨hcode, -⟩
  · exact hans.2
  · exact absurd hcode (show (0 : Int) ≠ -1 by decide)

theorem SessionMap.Atomic.trims {m m' : SessionMap} {o : StoreOp} {x : o.Ans} (h : m.Atomic o x m') (ho : o.Trims)
    {s : Session} (hs : s ∈ m'.rows) : s ∈ m.rows := by
  rcases h.rows hs with hs | heq | heq
  · exact hs
  · cases heq
    exact ho.elim
  · cases heq
    exact ho.elim

section

variable {ι : Type} [DecidableEq ι] {L : Extern} {cfg : ManagerConfig} {calls : ι → ManagerCall}

/-- What an operation after `h` may do to the map. -/
inductive Happens (L : Extern) (cfg : ManagerConfig) (calls : ι → ManagerCall) (h : CallHistory ι) (m : SessionMap) :
    Pool.Label Sys StoreSig ι → SessionMap → Prop
  | runtime {i o x} : Happens L cfg calls h m (some (i, ⟨.inl o, x⟩)) m
  | call {i o x m'} : Asks L cfg (calls i) (Pool.eventsOf i h) o → m.Atomic o x m' →
      Happens L cfg calls h m (some (i, answered o x)) m'
  | trimmed {o x m'} : StoreOp.Trims o → m.Atomic o x m' → Happens L cfg calls h m none m'

variable {P P' : CallPool ι} {h : CallHistory ι}

theorem CallRun.asks {h₁ h₂ : CallHistory ι} {t : Transition (CallPool ι) (Pool.Label Sys StoreSig ι)}
    (hrun : CallRun L cfg calls (h₁ ++ t :: h₂) P) (hs : Supplied (h₁ ++ t :: h₂)) {i : ι} {o : StoreOp} {x : o.Ans}
    (ht : t.label = some (i, answered o x)) : Asks L cfg (calls i) (Pool.eventsOf i h₁) o :=
  performs_program (Pool.performs hrun ht) (hs.of_append.obeys i)

theorem happens_of_step {l : Pool.Label Sys StoreSig ι} (hrun : CallRun L cfg calls h P)
    (hs : Supplied (h ++ [⟨P, l, P'⟩])) (hstep : Pool.Step atomicStore Trimmed P l P') {m : SessionMap}
    (hR : P.shared.Represents m) : ∃ m', Happens L cfg calls h m l m' ∧ P'.shared.Represents m' := by
  cases l with
  | none =>
    cases hstep with
    | self htrim =>
      obtain ⟨o, x, ho, hcall⟩ := htrim
      obtain ⟨m', ⟨-, hatomic⟩, hR'⟩ := hR.atomic hcall
      exact ⟨m', .trimmed ho hatomic, hR'⟩
  | some l =>
    obtain ⟨i, o | o, x⟩ := l
    · rw [← hstep.kept] at hR
      exact ⟨m, .runtime, hR⟩
    · obtain ⟨tr, hcall⟩ := hstep.answered
      obtain ⟨m', ⟨-, hatomic⟩, hR'⟩ := hR.atomic hcall
      exact ⟨m', .call (CallRun.asks (hrun.step hstep) hs rfl) hatomic, hR'⟩

/-- **What holds of the empty map and is kept by all that happens** holds of every interleaving. -/
theorem CallRun.keeps {J : CallHistory ι → SessionMap → Prop} (hrun : CallRun L cfg calls h P) (hs : Supplied h)
    (hinit : J [] Table.empty)
    (hstep : ∀ {h t m m'}, CallRun L cfg calls (h ++ [t]) t.post → J h m → Happens L cfg calls h m t.label m' →
      J (h ++ [t]) m') : ∃ m, P.shared.Represents m ∧ J h m := by
  induction hrun with
  | init => exact ⟨Table.empty, .empty, hinit⟩
  | @step h P l P' hrun hpool ih =>
    obtain ⟨m, hR, hJ⟩ := ih hs.of_append
    obtain ⟨m', hhappens, hR'⟩ := happens_of_step hrun hs hpool hR
    exact ⟨m', hR', hstep (t := ⟨P, l, P'⟩) (hrun.step hpool) hJ hhappens⟩

end

/-! ## Playing calls -/

section

variable {ι : Type} [DecidableEq ι]

/-- The calls of each schedule advance in turn, at the clock's 0, with the entropy it says. -/
def playTurns : List (Option UInt8 × List ι) → CallPool ι → Option (CallHistory ι × CallPool ι)
  | [], P => some ([], P)
  | (byte, schedule) :: turns, P =>
    (Pool.play (runtimeAt 0 byte 0) atomicServer schedule P).bind fun r =>
      (playTurns turns r.2).map fun r' => (r.1 ++ r'.1, r'.2)

theorem run_playTurns {turns : List (Option UInt8 × List ι)} {P P' : CallPool ι} {h : CallHistory ι}
    (hplay : playTurns turns P = some (h, P')) : Run (Pool.Step atomicStore Trimmed) P h P' ∧ Supplied h := by
  induction turns generalizing P h with
  | nil =>
    cases hplay
    exact ⟨.init, fun t ht => (List.not_mem_nil ht).elim⟩
  | cons turn turns ih =>
    obtain ⟨byte, schedule⟩ := turn
    simp only [playTurns, Option.bind_eq_some_iff, Option.map_eq_some_iff, Prod.ext_iff] at hplay
    obtain ⟨⟨h₁, P₁⟩, hfirst, ⟨h₂, P₂⟩, hrest, rfl, rfl⟩ := hplay
    obtain ⟨hrun, hsupplied⟩ := ih hrest
    refine ⟨(Pool.run_play (fun o ms => ⟨[], atomicServer_answers o ms⟩) hfirst).append hrun, ?_⟩
    refine Supplied.append (fun t ht i e hl x hx => ?_) hsupplied
    obtain ⟨o | o, y⟩ := e
    · exact Option.some.inj ((Pool.answered_play hfirst ht hl).symm.trans (runtimeAt_allocOk 0 o x hx))
    · cases hx

/-- What played calls come to is what some run comes to. -/
theorem exists_turns {α : Type} {turns : List (Option UInt8 × List ι)} {P : CallPool ι}
    {f : CallHistory ι × CallPool ι → α} {a : α} (hplay : (playTurns turns P).map f = some a) :
    ∃ h P', Run (Pool.Step atomicStore Trimmed) P h P' ∧ Supplied h ∧ f (h, P') = a := by
  obtain ⟨⟨h, P'⟩, hplay, hf⟩ := Option.map_eq_some_iff.mp hplay
  exact ⟨h, P', (run_playTurns hplay).1, (run_playTurns hplay).2, hf⟩

end

/-- The call `i` is over, and granted. -/
def isGranted {ι : Type} (P : CallPool ι) (i : ι) : Bool :=
  match P.threads i with
  | .ret reply => decide reply.Ok
  | .op _ _ => false

theorem replied_of_isGranted {ι : Type} {P : CallPool ι} {i : ι} (h : isGranted P i = true) :
    ∃ reply, Replied P i reply ∧ reply.Ok := by
  unfold isGranted at h
  split at h
  · rename_i reply hthread
    exact ⟨reply, hthread, of_decide_eq_true h⟩
  · cases h

/-- A login, and two registrations, two refreshes and a closing of its session. -/
def loginCalls (token refresh : CStr) : Fin 6 → ManagerCall
  | 0 => .initiate "u" none
  | 1 => .register (some zeroId) (some token)
  | 2 => .register (some zeroId) (some token)
  | 3 => .refresh (some zeroId) (some refresh)
  | 4 => .refresh (some zeroId) (some refresh)
  | 5 => .close (some zeroId)

/-- The calls of a device that answers the challenges drawn from 0 and from 1. -/
def devicePool : CallPool (Fin 6) :=
  callPool (deviceExtern [drawnChallenge 0, drawnChallenge 1]) (plainConfig 0)
    (loginCalls (registrationToken (drawnChallenge 0)) (refreshToken (drawnChallenge 1)))

end OpenDbsc
