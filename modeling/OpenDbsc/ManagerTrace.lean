/-
What a request does over a store, whatever the store.

A request looks its session up once and, if it goes through, changes the store
once; between the two it has only its copy. `ProofRequested` and `Renewed`
spell that out for register and refresh: the events, the calls on the store
and the reply. `notes` and `entropyOutputs` are what the theorems about runs
look at among the events.
-/
import OpenDbsc.ManagerFacts
import OpenDbsc.MemoryFacts

namespace OpenDbsc

open Effects Records Prog

/-- A call on the store, in the events of a request. -/
abbrev answered (o : StoreOp) (x : StoreOp.Ans o) : Event (Sys.sum StoreSig) := ⟨.inr o, x⟩

/-! ## What a call saw -/

/-- A clock reading, or a lookup in the store with what was found. -/
inductive Note where
  | reading (now : Int)
  | lookup (id : Option CStr) (out : Option Session)
  deriving DecidableEq

def noteOf : Event (Sys.sum StoreSig) → Option Note
  | ⟨.inl .time, now⟩ => some (.reading now)
  | ⟨.inr (.get id), out⟩ => some (.lookup id out)
  | _ => none

/-- The clock readings of a call and its lookups, in order. -/
def notes (tr : List (Event (Sys.sum StoreSig))) : List Note := tr.filterMap noteOf

def clockReadingOf : Note → Option Int
  | .reading now => some now
  | .lookup .. => none

/-- The clock readings of a call. -/
def clockReadings (tr : List (Event (Sys.sum StoreSig))) : List Int := (notes tr).filterMap clockReadingOf

def entropyOf : Event (Sys.sum StoreSig) → Option (List UInt8)
  | ⟨.inl (.getentropy _), some bytes⟩ => some bytes.val
  | _ => none

/-- The outputs of the successful `getentropy` calls. -/
def entropyOutputs (tr : List (Event (Sys.sum StoreSig))) : List (List UInt8) := tr.filterMap entropyOf

@[simp] theorem notes_append (tr₁ tr₂ : List (Event (Sys.sum StoreSig))) :
    notes (tr₁ ++ tr₂) = notes tr₁ ++ notes tr₂ :=
  List.filterMap_append

@[simp] theorem notes_map_inl (tr : List (Event Sys)) : notes (tr.map Event.inl) = (readings tr).map .reading := by
  induction tr with
  | nil => rfl
  | cons e tr ih =>
    obtain ⟨o, x⟩ := e
    cases o with
    | time => exact congrArg (Note.reading x :: ·) ih
    | _ => exact ih

@[simp] theorem notes_nil : notes [] = [] := rfl

@[simp] theorem notes_get (id : Option CStr) (out : Option Session) (tr : List (Event (Sys.sum StoreSig))) :
    notes (answered (.get id) out :: tr) = .lookup id out :: notes tr := rfl

@[simp] theorem notes_create (s : Session) (code : Int) (tr : List (Event (Sys.sum StoreSig))) :
    notes (answered (.create s) code :: tr) = notes tr := rfl

@[simp] theorem notes_update (s : Session) (code : Int) (tr : List (Event (Sys.sum StoreSig))) :
    notes (answered (.update s) code :: tr) = notes tr := rfl

@[simp] theorem notes_delete (id : Option CStr) (code : Int) (tr : List (Event (Sys.sum StoreSig))) :
    notes (answered (.delete id) code :: tr) = notes tr := rfl

@[simp] theorem clockReadingOf_map (xs : List Int) : (xs.map Note.reading).filterMap clockReadingOf = xs := by
  induction xs with
  | nil => rfl
  | cons x xs ih => exact congrArg (x :: ·) ih

/-- Leaving the allocations out changes nothing here. -/
theorem notes_filter (tr : List (Event (Sys.sum StoreSig))) :
    notes (tr.filter fun e => (onEnv allocOk e.op).isNone) = notes tr := by
  unfold notes
  rw [List.filterMap_filter]
  refine List.filterMap_congr fun e _ => ?_
  obtain ⟨o, x⟩ := e
  rcases o with o | o
  · cases o <;> rfl
  · rfl

/-! ## The runtime's part -/

/-- The expiry `apply_session_ttl` sets at clock value `now`. -/
def Session.withTtl (s : Session) (ttlSeconds now : Int) : Session :=
  if ttlSeconds > 0 then sessionSetExpiresAt s (now + ttlSeconds) else { s with expiresAt := 0, hasExpires := false }

/-- The clock is read only when there is an expiry to set. -/
def ttlReadings (ttlSeconds now : Int) : List Int := if ttlSeconds > 0 then [now] else []

theorem Trace.applySessionTtl {s s' : Session} {ttlSeconds : Int} {tr : List (Event Sys)}
    (h : Trace (applySessionTtl s ttlSeconds) tr s') :
    ∃ now, s' = s.withTtl ttlSeconds now ∧ readings tr = ttlReadings ttlSeconds now := by
  unfold OpenDbsc.applySessionTtl at h
  unfold Session.withTtl ttlReadings
  by_cases hpos : ttlSeconds > 0
  · rw [if_pos hpos] at h
    simp only [trace_bind, trace_time, trace_pure] at h
    obtain ⟨_, now, _, rfl, rfl, rfl, rfl⟩ := h
    refine ⟨now, ?_, ?_⟩
    · rw [if_pos hpos]
    · rw [if_pos hpos]
      rfl
  · rw [if_neg hpos, trace_pure] at h
    obtain ⟨rfl, rfl⟩ := h
    refine ⟨0, ?_, ?_⟩
    · rw [if_neg hpos]
    · rw [if_neg hpos]
      rfl

theorem Trace.emitEvent {cfg : ManagerConfig} {type : CStr} {user sessionId detail : Option CStr}
    {tr : List (Event Sys)} {u : Unit} (h : Trace (emitEvent cfg type user sessionId detail) tr u) :
    readings tr = [] := by
  unfold OpenDbsc.emitEvent at h
  split at h
  · have he := (trace_perform (S := Sys) (o := .onEvent type user sessionId detail)).mp h
    rw [he]
    rfl
  · obtain ⟨rfl, -⟩ := trace_pure.mp h
    rfl

theorem trace_getentropy {n : Nat} {tr : List (Event Sys)} {bytes} :
    Trace (getentropy n) tr bytes ↔ tr = [⟨.getentropy n, bytes⟩] :=
  trace_perform (S := Sys) (o := .getentropy n)

theorem Trace.sessionNewId {L : Extern} {tr : List (Event Sys)} {id : Option CStr}
    (h : Trace (sessionNewId L) tr id) : readings tr = [] := by
  unfold OpenDbsc.sessionNewId at h
  obtain ⟨tr₁, ts, tr₂, rfl, h₁, h₂⟩ := trace_bind.mp h
  have hts := (trace_perform (S := Sys) (o := .clockGettime)).mp h₁
  rw [hts]
  cases ts with
  | none =>
    obtain ⟨rfl, -⟩ := trace_pure.mp h₂
    rfl
  | some ts =>
    obtain ⟨tr₃, bytes, tr₄, rfl, h₃, h₄⟩ := trace_bind.mp h₂
    rw [trace_getentropy.mp h₃]
    have hquiet : tr₄ = [] := by
      cases bytes <;> exact (trace_pure.mp h₄).1
    rw [hquiet]
    rfl

/-- The 32 bytes of a challenge were drawn here, or could not be. -/
def Draws (tr : List (Event (Sys.sum StoreSig))) (bytes : Option { b : List UInt8 // b.length = 32 }) : Prop :=
  (⟨.inl (.getentropy 32), bytes⟩ : Event (Sys.sum StoreSig)) ∈ tr

theorem Draws.entropy {tr : List (Event (Sys.sum StoreSig))} {bytes} (h : Draws tr (some bytes)) :
    bytes.val ∈ entropyOutputs tr :=
  List.mem_filterMap.mpr ⟨_, h, rfl⟩

/-! ## Requests with a proof -/

section

variable {σ : Type} {B : Comp Sys StoreSig σ} {st st' : σ} {tr : List (Event (Sys.sum StoreSig))}

theorem exec_sys {α : Type} {p : Prog Sys α} {a : α} :
    Exec B (sys p) st tr a st' ↔ st' = st ∧ ∃ tr', tr = tr'.map Event.inl ∧ Trace p tr' a := exec_lift

theorem exec_storeGet {id : CStr} {out : Option Session} :
    Exec B (storeGet id) st tr out st' ↔
      ∃ tr', tr = tr'.map Event.inl ++ [answered (.get (some id)) out] ∧ B (.get (some id)) st tr' out st' :=
  exec_call (T := StoreSig) (o := StoreOp.get (some id)) (x := out)

theorem exec_storeCreate {s : Session} {code : Int} :
    Exec B (storeCreate s) st tr code st' ↔
      ∃ tr', tr = tr'.map Event.inl ++ [answered (.create s) code] ∧ B (.create s) st tr' code st' :=
  exec_call (T := StoreSig) (o := StoreOp.create s) (x := code)

theorem exec_storeUpdate {s : Session} {code : Int} :
    Exec B (storeUpdate s) st tr code st' ↔
      ∃ tr', tr = tr'.map Event.inl ++ [answered (.update s) code] ∧ B (.update s) st tr' code st' :=
  exec_call (T := StoreSig) (o := StoreOp.update s) (x := code)

theorem exec_storeDelete {id : CStr} {code : Int} :
    Exec B (storeDelete id) st tr code st' ↔
      ∃ tr', tr = tr'.map Event.inl ++ [answered (.delete (some id)) code] ∧ B (.delete (some id)) st tr' code st' :=
  exec_call (T := StoreSig) (o := StoreOp.delete (some id)) (x := code)

/-- A session renewed: a new challenge and expiry, and the copy written back. -/
inductive Renewed (B : Comp Sys StoreSig σ) (L : Extern) (cfg : ManagerConfig) (s : Session) (st : σ) :
    List (Event (Sys.sum StoreSig)) → Int × ManagerResponse → σ → Prop
  | mk {bytes now s' tr₁ tr₂ tr₃ code st'} :
      s' = ({ s with challenge := some (challengeOf bytes) } : Session).withTtl cfg.sessionTtlSeconds now →
      Draws (tr₁.map Event.inl) bytes → readings tr₁ = ttlReadings cfg.sessionTtlSeconds now → readings tr₃ = [] →
      B (StoreOp.update s') st tr₂ code st' →
      Renewed B L cfg s st (tr₁.map Event.inl ++ (tr₂.map Event.inl ++ answered (.update s') code :: tr₃.map Event.inl))
        (if code = 0 then (0, renewedResponse L cfg s') else (-1, managerResponseInit)) st'

/-- A request with a proof: the lookup, the verdict on the copy, the renewal. -/
inductive ProofRequested (B : Comp Sys StoreSig σ) (L : Extern) (cfg : ManagerConfig) (id : Option CStr)
    (missing : ManagerResponse) (verdict : Session → Verdict) (st : σ) :
    List (Event (Sys.sum StoreSig)) → Int × ManagerResponse → σ → Prop
  | missing : nonEmpty id = none → ProofRequested B L cfg id missing verdict st [] (0, missing) st
  | absent {id' tr₁ st'} : nonEmpty id = some id' → B (StoreOp.get (some id')) st tr₁ none st' →
      ProofRequested B L cfg id missing verdict st (tr₁.map Event.inl ++ [answered (.get (some id')) none])
        (0, refusal 401 "\"invalid session\"") st'
  | rejected {id' tr₁ s resp st'} : nonEmpty id = some id' → B (StoreOp.get (some id')) st tr₁ (some s) st' →
      verdict s = .reject resp →
      ProofRequested B L cfg id missing verdict st (tr₁.map Event.inl ++ [answered (.get (some id')) (some s)])
        (0, resp) st'
  | accepted {id' tr₁ s s₁ st₁ tr₂ r st'} : nonEmpty id = some id' → B (StoreOp.get (some id')) st tr₁ (some s) st₁ →
      verdict s = .accept s₁ → Renewed B L cfg s₁ st₁ tr₂ r st' →
      ProofRequested B L cfg id missing verdict st
        (tr₁.map Event.inl ++ answered (.get (some id')) (some s) :: tr₂) r st'

variable {L : Extern} {cfg : ManagerConfig} {type : CStr} {r : Int × ManagerResponse}

theorem exec_renew {detail : CStr} {s : Session} (h : Exec B (renew L cfg type detail s) st tr r st') :
    Renewed B L cfg s st tr r st' := by
  simp only [renew, exec_bind, exec_sys, trace_getentropy] at h
  obtain ⟨_, bytes, _, _, rfl, ⟨rfl, _, rfl, rfl⟩, h⟩ := h
  obtain ⟨_, s', _, _, rfl, ⟨rfl, trTtl, rfl, httl⟩, h⟩ := h
  obtain ⟨now, hs', hread⟩ := Trace.applySessionTtl httl
  obtain ⟨_, code, st₁, tr₃, rfl, hupdate, h⟩ := h
  obtain ⟨tr₂, rfl, hB⟩ := exec_storeUpdate.mp hupdate
  have hdraws : Draws (((⟨.getentropy 32, bytes⟩ :: trTtl).map Event.inl : List (Event (Sys.sum StoreSig)))) bytes :=
    List.mem_cons_self
  have hread' :
    readings ((⟨.getentropy 32, bytes⟩ : Event Sys) :: trTtl) = ttlReadings cfg.sessionTtlSeconds now := hread
  by_cases hcode : code = 0
  · rw [if_neg (not_not.mpr hcode)] at h
    simp only [exec_bind, exec_sys, exec_pure] at h
    obtain ⟨_, _, _, _, rfl, ⟨rfl, trE, rfl, hemit⟩, rfl, rfl, rfl⟩ := h
    have hr := Renewed.mk (L := L) hs' hdraws hread' (Trace.emitEvent hemit) hB
    rw [if_pos hcode] at hr
    simpa using hr
  · rw [if_pos hcode] at h
    obtain ⟨rfl, rfl, rfl⟩ := exec_pure.mp h
    have hquiet : readings ([] : List (Event Sys)) = [] := rfl
    have hr := Renewed.mk (L := L) hs' hdraws hread' hquiet hB
    rw [if_neg hcode] at hr
    simpa using hr

theorem exec_undefinedBehavior {α : Type} {a : α} : ¬ Exec B (sys undefinedBehavior) st tr a st' := by
  intro h
  obtain ⟨-, tr', -, ht⟩ := exec_sys.mp h
  obtain ⟨x, -⟩ := trace_op.mp ht
  nomatch x

/-- **What a request with a proof can do.** -/
theorem exec_proofRequest {id : Option CStr} {missing : ManagerResponse} {verdict : Session → Verdict}
    {detail : Session → CStr} (h : Exec B (proofRequest L cfg id missing verdict type detail) st tr r st') :
    ProofRequested B L cfg id missing verdict st tr r st' := by
  unfold proofRequest at h
  cases hid : nonEmpty id with
  | none =>
    simp only [hid] at h
    obtain ⟨rfl, rfl, rfl⟩ := exec_pure.mp h
    exact .missing hid
  | some id' =>
    simp only [hid] at h
    obtain ⟨_, out, st₁, tr₂, rfl, hget, hrest⟩ := exec_bind.mp h
    obtain ⟨tr₁, rfl, hB⟩ := exec_storeGet.mp hget
    cases out with
    | none =>
      obtain ⟨rfl, rfl, rfl⟩ := exec_pure.mp hrest
      rw [List.append_nil]
      exact .absent hid hB
    | some s =>
      simp only at hrest
      cases hv : verdict s with
      | reject resp =>
        rw [hv] at hrest
        obtain ⟨rfl, rfl, rfl⟩ := exec_pure.mp hrest
        rw [List.append_nil]
        exact .rejected hid hB hv
      | undefined =>
        rw [hv] at hrest
        exact absurd hrest exec_undefinedBehavior
      | accept s₁ =>
        rw [hv] at hrest
        rw [List.append_assoc, List.singleton_append]
        exact .accepted hid hB hv (exec_renew hrest)

end

end OpenDbsc
