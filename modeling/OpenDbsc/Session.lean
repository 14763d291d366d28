/-
`session/session.c`: sessions, their setters and their copies.

A setter returns its C return code with the session it leaves behind; when
`strdup` fails the field keeps its old value.
-/
import OpenDbsc.Effects.Reports
import OpenDbsc.Extern

namespace OpenDbsc

open Effects Prog

inductive SessionState where
  | active
  | bound
  deriving DecidableEq

structure Session where
  id : Option CStr
  userId : Option CStr
  state : SessionState
  publicKey : Option CStr
  algorithm : Option CStr
  challenge : Option CStr
  expiresAt : Int
  hasExpires : Bool
  createdAt : Int
  deriving DecidableEq

/-- `sizeof(OpenDBSC_Session)` on LP64. -/
def sizeofSession : Nat := 72

def sessionInit : Session where
  id := none
  userId := none
  state := .active
  publicKey := none
  algorithm := none
  challenge := none
  expiresAt := 0
  hasExpires := false
  createdAt := 0

def setString (field value : Option CStr) : Prog Sys (Int × Option CStr) :=
  match value with
  | none => pure (0, none)
  | some value => do
    match ← strdup value with
    | none => pure (-1, field)
    | some copy => pure (0, some copy)

/-- A setter: `setString` on one field. -/
def setField (put : Option CStr → Session) (field value : Option CStr) : Prog Sys (Int × Session) := do
  let (rc, field) ← setString field value
  pure (rc, put field)

def sessionSetId (s : Session) (id : Option CStr) : Prog Sys (Int × Session) :=
  setField (fun id => { s with id }) s.id id

def sessionSetUserId (s : Session) (userId : Option CStr) : Prog Sys (Int × Session) :=
  setField (fun userId => { s with userId }) s.userId userId

def sessionSetPublicKey (s : Session) (publicKey : Option CStr) : Prog Sys (Int × Session) :=
  setField (fun publicKey => { s with publicKey }) s.publicKey publicKey

def sessionSetAlgorithm (s : Session) (algorithm : Option CStr) : Prog Sys (Int × Session) :=
  setField (fun algorithm => { s with algorithm }) s.algorithm algorithm

def sessionSetChallenge (s : Session) (challenge : Option CStr) : Prog Sys (Int × Session) :=
  setField (fun challenge => { s with challenge }) s.challenge challenge

def sessionSetState (s : Session) (state : SessionState) : Session := { s with state }

/-- An unknown name leaves the state as it was. -/
def sessionSetStateStr (s : Session) (state : CStr) : Int × Session :=
  if state = "active" then (0, { s with state := .active })
  else if state = "bound" then (0, { s with state := .bound })
  else (-1, s)

def sessionStateStr (s : Session) : CStr :=
  match s.state with
  | .bound => "bound"
  | .active => "active"

/-- Zero clears the expiry. -/
def sessionSetExpiresAt (s : Session) (expiresAt : Int) : Session :=
  { s with expiresAt, hasExpires := expiresAt != 0 }

def sessionSetCreatedAt (s : Session) (createdAt : Int) : Session := { s with createdAt }

/-- The copy is made field by field; a failure leaves the fields after it null. -/
def sessionCopy (src : Session) : Prog Sys (Int × Session) := do
  let dest := { sessionInit with
    state := src.state, expiresAt := src.expiresAt, hasExpires := src.hasExpires, createdAt := src.createdAt }
  let (rc, dest) ← sessionSetId dest src.id
  if rc ≠ 0 then return (-1, dest)
  let (rc, dest) ← sessionSetUserId dest src.userId
  if rc ≠ 0 then return (-1, dest)
  let (rc, dest) ← sessionSetPublicKey dest src.publicKey
  if rc ≠ 0 then return (-1, dest)
  let (rc, dest) ← sessionSetAlgorithm dest src.algorithm
  if rc ≠ 0 then return (-1, dest)
  let (rc, dest) ← sessionSetChallenge dest src.challenge
  if rc ≠ 0 then return (-1, dest)
  return (0, dest)

/-- `opendbsc_session_new_id`, for a buffer of 37 bytes. -/
def sessionNewId (L : Extern) : Prog Sys (Option CStr) := do
  match ← clockGettime with
  | none => pure none
  | some (sec, nsec) =>
    let unixTsMs := (sec * 1000 + nsec / 1000000) % 2 ^ 64
    match ← getentropy 10 with
    | none => pure none
    | some randBytes => pure (L.uuidv7 unixTsMs randBytes)

/-! ## With every allocation succeeding -/

@[simp] theorem assuming_setString (field value : Option CStr) :
    (setString field value).assuming allocOk = pure (0, value) := by
  cases value with
  | none => rfl
  | some v => simp [setString]

@[simp] theorem assuming_setField (put : Option CStr → Session) (field value : Option CStr) :
    (setField put field value).assuming allocOk = pure (0, put value) := by
  simp [setField]

@[simp] theorem assuming_sessionSetId (s : Session) (id : Option CStr) :
    (sessionSetId s id).assuming allocOk = pure (0, { s with id }) := assuming_setField ..

@[simp] theorem assuming_sessionSetUserId (s : Session) (userId : Option CStr) :
    (sessionSetUserId s userId).assuming allocOk = pure (0, { s with userId }) := assuming_setField ..

@[simp] theorem assuming_sessionSetPublicKey (s : Session) (publicKey : Option CStr) :
    (sessionSetPublicKey s publicKey).assuming allocOk = pure (0, { s with publicKey }) := assuming_setField ..

@[simp] theorem assuming_sessionSetAlgorithm (s : Session) (algorithm : Option CStr) :
    (sessionSetAlgorithm s algorithm).assuming allocOk = pure (0, { s with algorithm }) := assuming_setField ..

@[simp] theorem assuming_sessionSetChallenge (s : Session) (challenge : Option CStr) :
    (sessionSetChallenge s challenge).assuming allocOk = pure (0, { s with challenge }) := assuming_setField ..

@[simp] theorem assuming_sessionCopy (src : Session) :
    (sessionCopy src).assuming allocOk = pure (0, src) := by
  simp [sessionCopy]

@[simp] theorem assuming_sessionNewId (L : Extern) :
    (sessionNewId L).assuming allocOk = sessionNewId L := by
  simp only [sessionNewId, Prog.assuming_bind, assuming_clockGettime]
  congr 1
  funext ts
  cases ts with
  | none => rfl
  | some ts =>
    simp only [Prog.assuming_bind, assuming_getentropy]
    congr 1
    funext b
    cases b <;> rfl

/-! ## With allocations that may fail -/

theorem ensures_setField {put : Option CStr → Session} {field value : Option CStr} :
    Ensures (setField put field value) fun r => r = (0, put value) ∨ r = (-1, put field) := by
  unfold setField setString
  cases value with
  | none => exact Ensures.pure (.inl rfl)
  | some value =>
    unfold strdup
    refine Ensures.bind (P := fun r => r = (0, some value) ∨ r = (-1, field)) ?_ fun r hr => ?_
    · refine Ensures.bind (P := fun copy => copy = some value ∨ copy = none) ?_ fun copy hcopy => ?_
      · refine Ensures.bind_any fun b => ?_
        cases b with
        | true => exact Ensures.pure (.inl rfl)
        | false => exact Ensures.pure (.inr rfl)
      · rcases hcopy with rfl | rfl
        · exact Ensures.pure (.inl rfl)
        · exact Ensures.pure (.inr rfl)
    · rcases hr with rfl | rfl
      · exact Ensures.pure (.inl rfl)
      · exact Ensures.pure (.inr rfl)

/-- A setter that succeeds has set the field. -/
theorem ensures_set {put : Option CStr → Session} {field value : Option CStr} :
    Ensures (setField put field value) fun r => r.1 = 0 → r.2 = put value := by
  intro tr r ht hrc
  rcases ensures_setField tr r ht with rfl | rfl
  · rfl
  · cases hrc

/-- What comes after a setter, which must succeed. -/
theorem ensures_guard {α : Type} {rc : Int} {a : α} {p : Prog Sys α} {Q : α → Prop} (hfail : Q a)
    (hp : rc = 0 → Ensures p Q) : Ensures (if rc ≠ 0 then pure a else p) Q := by
  split
  · exact Ensures.pure hfail
  · rename_i hrc
    exact hp (not_not.mp hrc)

theorem ensures_sessionSetId (s : Session) (id : Option CStr) :
    Ensures (sessionSetId s id) fun r => r.1 = 0 → r.2 = { s with id } := ensures_set

theorem ensures_sessionSetUserId (s : Session) (userId : Option CStr) :
    Ensures (sessionSetUserId s userId) fun r => r.1 = 0 → r.2 = { s with userId } := ensures_set

theorem ensures_sessionSetPublicKey (s : Session) (publicKey : Option CStr) :
    Ensures (sessionSetPublicKey s publicKey) fun r => r.1 = 0 → r.2 = { s with publicKey } := ensures_set

theorem ensures_sessionSetAlgorithm (s : Session) (algorithm : Option CStr) :
    Ensures (sessionSetAlgorithm s algorithm) fun r => r.1 = 0 → r.2 = { s with algorithm } := ensures_set

theorem ensures_sessionSetChallenge (s : Session) (challenge : Option CStr) :
    Ensures (sessionSetChallenge s challenge) fun r => r.1 = 0 → r.2 = { s with challenge } := ensures_set

/-- A copy that succeeds is the session copied. -/
theorem ensures_sessionCopy (src : Session) : Ensures (sessionCopy src) fun r => r.1 = 0 → r.2 = src := by
  unfold sessionCopy
  refine Ensures.bind (ensures_sessionSetId _ _) fun (rc, s₁) h₁ => ensures_guard (fun h => nomatch h) fun hrc => ?_
  obtain rfl : s₁ = _ := h₁ hrc
  refine Ensures.bind (ensures_sessionSetUserId _ _) fun (rc, s₂) h₂ => ensures_guard (fun h => nomatch h) fun hrc => ?_
  obtain rfl : s₂ = _ := h₂ hrc
  refine Ensures.bind (ensures_sessionSetPublicKey _ _) fun (rc, s₃) h₃ =>
    ensures_guard (fun h => nomatch h) fun hrc => ?_
  obtain rfl : s₃ = _ := h₃ hrc
  refine Ensures.bind (ensures_sessionSetAlgorithm _ _) fun (rc, s₄) h₄ =>
    ensures_guard (fun h => nomatch h) fun hrc => ?_
  obtain rfl : s₄ = _ := h₄ hrc
  refine Ensures.bind (ensures_sessionSetChallenge _ _) fun (rc, s₅) h₅ =>
    ensures_guard (fun h => nomatch h) fun hrc => ?_
  obtain rfl : s₅ = _ := h₅ hrc
  exact Ensures.pure fun _ => rfl

section

variable {φ : Event Sys → Prop}

theorem reports_malloc (size : Nat) : Reports φ allocOk (fun b => b = true) (malloc size) :=
  reports_perform (S := Sys) (o := .malloc size) fun x _ => by simp [allocOk]

theorem reports_strdup (s : CStr) : Reports φ allocOk (fun copy => copy ≠ none) (strdup s) := by
  refine (reports_malloc _).bind (fun b hb => ?_) fun b hb => ?_
  · rw [if_pos hb]
    exact reports_pure nofun
  · rw [if_neg hb]
    exact Ensures.pure fun h => h rfl

theorem reports_setString (field value : Option CStr) :
    Reports φ allocOk (fun r => r.1 = 0) (setString field value) := by
  cases value with
  | none => exact reports_pure rfl
  | some value =>
    refine (reports_strdup value).bind (fun copy hcopy => ?_) fun copy hcopy => ?_
    · cases copy with
      | none => exact absurd rfl hcopy
      | some copy => exact reports_pure rfl
    · rw [not_not.mp hcopy]
      exact Ensures.pure nofun

/-- A setter fails exactly when its allocation does. -/
theorem reports_setField {put : Option CStr → Session} {field value : Option CStr} :
    Reports φ allocOk (fun r => r.1 = 0) (setField put field value) :=
  (reports_setString field value).bind (fun _ hr => reports_pure hr) fun _ hr => Ensures.pure hr

/-- A step that returns a code, tried before the next. -/
theorem reports_guard {σ α : Type} {p : Prog Sys (Int × σ)} {ok : α → Prop} {failed : Int × σ → α}
    {k : Int × σ → Prog Sys α} (hp : Reports φ allocOk (fun r => r.1 = 0) p) (hfailed : ∀ r, ¬ ok (failed r))
    (hk : ∀ r, r.1 = 0 → Reports φ allocOk ok (k r)) :
    Reports φ allocOk ok (p >>= fun r => if r.1 ≠ 0 then pure (failed r) else k r) := by
  refine hp.bind (fun r hr => ?_) fun r hr => ?_
  · rw [if_neg (not_not.mpr hr)]
    exact hk r hr
  · rw [if_pos hr]
    exact Ensures.pure (hfailed r)

/-- A copy fails exactly when one of its allocations does. -/
theorem reports_sessionCopy (src : Session) : Reports φ allocOk (fun r => r.1 = 0) (sessionCopy src) := by
  refine reports_guard reports_setField (fun _ => nofun) fun r₁ _ => ?_
  refine reports_guard reports_setField (fun _ => nofun) fun r₂ _ => ?_
  refine reports_guard reports_setField (fun _ => nofun) fun r₃ _ => ?_
  refine reports_guard reports_setField (fun _ => nofun) fun r₄ _ => ?_
  refine reports_guard reports_setField (fun _ => nofun) fun r₅ _ => ?_
  exact reports_pure rfl

end

end OpenDbsc
