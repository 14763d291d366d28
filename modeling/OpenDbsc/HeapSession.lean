/-
`session/session.c` on a heap: sessions whose strings are pointers.

A caller's string is given by its characters. A session that a function writes
through a pointer is passed and returned; whoever holds it puts it back.
-/
import OpenDbsc.Heaps.Refine
import OpenDbsc.Session

namespace OpenDbsc

open Effects Heaps

/-- `OpenDBSC_Session` as it lies in memory. -/
structure RawSession where
  id : Option Nat
  userId : Option Nat
  state : SessionState
  publicKey : Option Nat
  algorithm : Option Nat
  challenge : Option Nat
  expiresAt : Int
  hasExpires : Bool
  createdAt : Int
  deriving DecidableEq

/-- `OpenDBSC_MemoryStore`, without its mutex. -/
structure RawMemoryStore where
  sessions : Option Nat
  count : Nat
  capacity : Nat
  store : Option Nat
  deriving DecidableEq

/-- What a block holds. A slot of an array is `none` before it is written. -/
inductive HeapBlock where
  | text (chars : CStr)
  | sessions (slots : List (Option RawSession))
  | memoryStore (ms : RawMemoryStore)
  /-- `OpenDBSC_Store`, its functions those of the memory store. -/
  | store (impl : Option Nat)
  deriving DecidableEq

instance : Allocating Sys where
  request := malloc
  undefined := .undefined
  never := inferInstanceAs (IsEmpty Empty)

abbrev OnHeap (α : Type) := HeapM Sys HeapBlock α

namespace Raw

/-- The characters of a string that is read. -/
def chars (p : Option Nat) : OnHeap CStr := do
  match ← load p with
  | .text t => pure t
  | _ => undefined

/-- The same, for a pointer that may be null. -/
def charsOrNull : Option Nat → OnHeap (Option CStr)
  | none => pure none
  | some a => some <$> chars (some a)

def sessionInit : RawSession where
  id := none
  userId := none
  state := .active
  publicKey := none
  algorithm := none
  challenge := none
  expiresAt := 0
  hasExpires := false
  createdAt := 0

def sessionFree (s : RawSession) : OnHeap RawSession := do
  free s.id
  free s.userId
  free s.publicKey
  free s.algorithm
  free s.challenge
  pure sessionInit

def setString (field : Option Nat) (value : Option CStr) : OnHeap (Int × Option Nat) := do
  match value with
  | none =>
    free field
    pure (0, none)
  | some value =>
    match ← alloc (value.length + 1) (.text value) with
    | none => pure (-1, field)
    | some copy =>
      free field
      pure (0, some copy)

/-- A setter: `setString` on one field. -/
def setField (put : Option Nat → RawSession) (field : Option Nat) (value : Option CStr) : OnHeap (Int × RawSession) := do
  let (rc, field) ← setString field value
  pure (rc, put field)

def sessionSetId (s : RawSession) (id : Option CStr) : OnHeap (Int × RawSession) :=
  setField (fun id => { s with id }) s.id id

def sessionSetUserId (s : RawSession) (userId : Option CStr) : OnHeap (Int × RawSession) :=
  setField (fun userId => { s with userId }) s.userId userId

def sessionSetPublicKey (s : RawSession) (publicKey : Option CStr) : OnHeap (Int × RawSession) :=
  setField (fun publicKey => { s with publicKey }) s.publicKey publicKey

def sessionSetAlgorithm (s : RawSession) (algorithm : Option CStr) : OnHeap (Int × RawSession) :=
  setField (fun algorithm => { s with algorithm }) s.algorithm algorithm

def sessionSetChallenge (s : RawSession) (challenge : Option CStr) : OnHeap (Int × RawSession) :=
  setField (fun challenge => { s with challenge }) s.challenge challenge

def sessionSetState (s : RawSession) (state : SessionState) : RawSession := { s with state }

def sessionSetExpiresAt (s : RawSession) (expiresAt : Int) : RawSession :=
  { s with expiresAt, hasExpires := expiresAt != 0 }

def sessionSetCreatedAt (s : RawSession) (createdAt : Int) : RawSession := { s with createdAt }

/-- `dest` is freed first; a failure leaves the fields after it null. -/
def sessionCopy (dest src : RawSession) : OnHeap (Int × RawSession) := do
  let dest ← sessionFree dest
  let dest := { dest with
    state := src.state, expiresAt := src.expiresAt, hasExpires := src.hasExpires, createdAt := src.createdAt }
  let (rc, dest) ← sessionSetId dest (← charsOrNull src.id)
  if rc ≠ 0 then return (-1, dest)
  let (rc, dest) ← sessionSetUserId dest (← charsOrNull src.userId)
  if rc ≠ 0 then return (-1, dest)
  let (rc, dest) ← sessionSetPublicKey dest (← charsOrNull src.publicKey)
  if rc ≠ 0 then return (-1, dest)
  let (rc, dest) ← sessionSetAlgorithm dest (← charsOrNull src.algorithm)
  if rc ≠ 0 then return (-1, dest)
  let (rc, dest) ← sessionSetChallenge dest (← charsOrNull src.challenge)
  if rc ≠ 0 then return (-1, dest)
  return (0, dest)

end Raw

/-! ## What a session owns -/

open Assertion

/-- The pointer is null, or at a string of its own. -/
def textAt : Option Nat → Option CStr → Assertion HeapBlock
  | none, none => 1
  | some a, some t => pts a (.text t)
  | _, _ => ⊥

/-- The fields that are no strings. -/
def RawSession.Same (raw : RawSession) (s : Session) : Prop :=
  raw.state = s.state ∧ raw.expiresAt = s.expiresAt ∧ raw.hasExpires = s.hasExpires ∧ raw.createdAt = s.createdAt

/-- The strings of `raw` are those of `s`, each in a block of its own. -/
def RawSession.owns (raw : RawSession) (s : Session) : Assertion HeapBlock :=
  ⨆ _ : raw.Same s, textAt raw.id s.id * (textAt raw.userId s.userId * (textAt raw.publicKey s.publicKey *
    (textAt raw.algorithm s.algorithm * textAt raw.challenge s.challenge)))

section

variable {α α' : Type} {P : Assertion HeapBlock} {q : Prog Sys α'} {Q : α → α' → Assertion HeapBlock} {p : Option Nat}
  {t : Option CStr} {raw dest : RawSession} {s d : Session}

theorem free_text {f : Unit → OnHeap α} (hr : Refines P (f ()) q Q) : Refines (textAt p t * P) (free p >>= f) q Q := by
  cases p with
  | none =>
    cases t with
    | none =>
      rw [textAt, one_mul]
      exact hr
    | some t => exact .bot_mul
  | some a =>
    cases t with
    | none => exact .bot_mul
    | some t => exact .free_bind hr

theorem chars_bind {a : Nat} {t : CStr} {f : CStr → OnHeap α} (hr : Refines (pts a (.text t) * P) (f t) q Q) :
    Refines (pts a (.text t) * P) (Raw.chars (some a) >>= f) q Q := by
  rw [Raw.chars, bind_assoc]
  refine .load_bind ?_
  rw [pure_bind]
  exact hr

theorem charsOrNull_bind {f : Option CStr → OnHeap α} (hr : Refines (textAt p t * P) (f t) q Q) :
    Refines (textAt p t * P) (Raw.charsOrNull p >>= f) q Q := by
  cases p with
  | none =>
    cases t with
    | none => exact hr
    | some t => exact .bot_mul
  | some a =>
    cases t with
    | none => exact .bot_mul
    | some t =>
      rw [Raw.charsOrNull, map_eq_pure_bind, bind_assoc]
      refine chars_bind ?_
      rw [pure_bind]
      exact hr

/-- The same code, and a field that holds what the value says. -/
def fieldResult (r : Int × Option Nat) (r' : Int × Option CStr) : Assertion HeapBlock := ⨆ _ : r.1 = r'.1, textAt r.2 r'.2

theorem refines_setString (p : Option Nat) (old value : Option CStr) :
    Refines (textAt p old) (Raw.setString p value) (setString old value) fieldResult := by
  rw [← mul_one (textAt p old)]
  cases value with
  | none =>
    refine free_text (.pure ?_)
    simp [fieldResult, textAt]
  | some value =>
    simp only [Raw.setString, setString, strdup, bind_assoc]
    refine .alloc_bind (fun a => ?_) ?_
    · rw [mul_left_comm]
      refine free_text ?_
      simp only [if_true, pure_bind]
      refine .pure ?_
      simp [fieldResult, textAt]
    · simp only [Bool.false_eq_true, if_false, pure_bind]
      refine .pure ?_
      simp [fieldResult]

/-- The same code, and a session of its own. -/
def sessionResult (r : Int × RawSession) (r' : Int × Session) : Assertion HeapBlock := ⨆ _ : r.1 = r'.1, r.2.owns r'.2

/-- A string field, apart from the others. -/
def IsField (put : Option Nat → RawSession) (put' : Option CStr → Session) : Prop :=
  ∃ R, ∀ p t, (put p).owns (put' t) = textAt p t * R

theorem isField_id (raw : RawSession) (s : Session) : IsField (fun id => { raw with id }) fun id => { s with id } := by
  refine ⟨⨆ _ : raw.Same s, textAt raw.userId s.userId * (textAt raw.publicKey s.publicKey *
    (textAt raw.algorithm s.algorithm * textAt raw.challenge s.challenge)), fun p t => ?_⟩
  rw [mul_iSup]
  rfl

theorem isField_userId (raw : RawSession) (s : Session) :
    IsField (fun userId => { raw with userId }) fun userId => { s with userId } := by
  refine ⟨⨆ _ : raw.Same s, textAt raw.id s.id * (textAt raw.publicKey s.publicKey *
    (textAt raw.algorithm s.algorithm * textAt raw.challenge s.challenge)), fun p t => ?_⟩
  rw [mul_iSup]
  refine iSup_congr fun _ => ?_
  dsimp only
  ac_rfl

theorem isField_publicKey (raw : RawSession) (s : Session) :
    IsField (fun publicKey => { raw with publicKey }) fun publicKey => { s with publicKey } := by
  refine ⟨⨆ _ : raw.Same s, textAt raw.id s.id * (textAt raw.userId s.userId *
    (textAt raw.algorithm s.algorithm * textAt raw.challenge s.challenge)), fun p t => ?_⟩
  rw [mul_iSup]
  refine iSup_congr fun _ => ?_
  dsimp only
  ac_rfl

theorem isField_algorithm (raw : RawSession) (s : Session) :
    IsField (fun algorithm => { raw with algorithm }) fun algorithm => { s with algorithm } := by
  refine ⟨⨆ _ : raw.Same s, textAt raw.id s.id * (textAt raw.userId s.userId *
    (textAt raw.publicKey s.publicKey * textAt raw.challenge s.challenge)), fun p t => ?_⟩
  rw [mul_iSup]
  refine iSup_congr fun _ => ?_
  dsimp only
  ac_rfl

theorem isField_challenge (raw : RawSession) (s : Session) :
    IsField (fun challenge => { raw with challenge }) fun challenge => { s with challenge } := by
  refine ⟨⨆ _ : raw.Same s, textAt raw.id s.id * (textAt raw.userId s.userId *
    (textAt raw.publicKey s.publicKey * textAt raw.algorithm s.algorithm)), fun p t => ?_⟩
  rw [mul_iSup]
  refine iSup_congr fun _ => ?_
  dsimp only
  ac_rfl

section

variable {put putSrc : Option Nat → RawSession} {put' putSrc' : Option CStr → Session} {old : Option CStr}

theorem refines_setField (h : IsField put put') (p : Option Nat) (old value : Option CStr) :
    Refines ((put p).owns (put' old)) (Raw.setField put p value) (setField put' old value) sessionResult := by
  obtain ⟨R, hR⟩ := h
  rw [hR]
  refine (refines_setString p old value).step fun r r' => ?_
  refine .exists_mul fun hrc => .pure ?_
  simp [sessionResult, hR, hrc]

/-- A field is read. -/
theorem readField_bind (hs : IsField put put') (hraw : raw = put p) (hs' : s = put' t) {f : Option CStr → OnHeap α}
    (hr : Refines (raw.owns s * P) (f t) q Q) : Refines (raw.owns s * P) (Raw.charsOrNull p >>= f) q Q := by
  subst hraw hs'
  obtain ⟨R, hR⟩ := hs
  rw [hR, mul_assoc] at hr ⊢
  exact charsOrNull_bind hr

/-- One field of a copy. -/
theorem copyField_bind (hd : IsField put put') (hs : IsField putSrc putSrc') {p' : Option Nat} {src : RawSession}
    {f : Int × RawSession → OnHeap α} {g : Int × Session → Prog Sys α'} (hdest : dest = put p) (hdest' : d = put' old)
    (hsrc : src = putSrc p') (hsrc' : s = putSrc' t)
    (hr : ∀ rc dest d, Refines (dest.owns d * src.owns s) (f (rc, dest)) (g (rc, d)) Q) :
    Refines (dest.owns d * src.owns s) (Raw.charsOrNull p' >>= fun value => Raw.setField put p value >>= f)
      (setField put' old t >>= g) Q := by
  subst hdest hdest'
  rw [mul_comm]
  refine readField_bind hs hsrc hsrc' ?_
  rw [mul_comm]
  refine (refines_setField hd p old t).step fun r r' => ?_
  refine .exists_mul fun hrc => ?_
  obtain ⟨rc, dest⟩ := r
  obtain ⟨rc', d⟩ := r'
  obtain rfl : rc = rc' := hrc
  exact hr rc dest d

end

theorem readId_bind {f : Option CStr → OnHeap α} (hr : Refines (raw.owns s * P) (f s.id) q Q) :
    Refines (raw.owns s * P) (Raw.charsOrNull raw.id >>= f) q Q := readField_bind (isField_id raw s) rfl rfl hr

theorem readUserId_bind {f : Option CStr → OnHeap α} (hr : Refines (raw.owns s * P) (f s.userId) q Q) :
    Refines (raw.owns s * P) (Raw.charsOrNull raw.userId >>= f) q Q := readField_bind (isField_userId raw s) rfl rfl hr

theorem readPublicKey_bind {f : Option CStr → OnHeap α} (hr : Refines (raw.owns s * P) (f s.publicKey) q Q) :
    Refines (raw.owns s * P) (Raw.charsOrNull raw.publicKey >>= f) q Q := readField_bind (isField_publicKey raw s) rfl rfl hr

theorem readAlgorithm_bind {f : Option CStr → OnHeap α} (hr : Refines (raw.owns s * P) (f s.algorithm) q Q) :
    Refines (raw.owns s * P) (Raw.charsOrNull raw.algorithm >>= f) q Q := readField_bind (isField_algorithm raw s) rfl rfl hr

theorem readChallenge_bind {f : Option CStr → OnHeap α} (hr : Refines (raw.owns s * P) (f s.challenge) q Q) :
    Refines (raw.owns s * P) (Raw.charsOrNull raw.challenge >>= f) q Q := readField_bind (isField_challenge raw s) rfl rfl hr

@[simp] theorem owns_init : Raw.sessionInit.owns sessionInit = 1 := by
  simp [RawSession.owns, RawSession.Same, Raw.sessionInit, sessionInit, textAt]

theorem sessionFree_bind {f : RawSession → OnHeap α} (hr : Refines P (f Raw.sessionInit) q Q) :
    Refines (raw.owns s * P) (Raw.sessionFree raw >>= f) q Q := by
  refine .exists_mul fun _ => ?_
  simp only [Raw.sessionFree, bind_assoc, mul_assoc, pure_bind]
  exact free_text (free_text (free_text (free_text (free_text hr))))

theorem owns_same (raw : RawSession) (s : Session) : raw.owns s = ⨆ _ : raw.Same s, raw.owns s := by
  by_cases h : raw.Same s
  · simp [h]
  · simp [h, RawSession.owns]

theorem owns_id_null (raw : RawSession) (s : Session) : raw.owns s = ⨆ _ : raw.id = none ↔ s.id = none, raw.owns s := by
  obtain ⟨R, hR⟩ := isField_id raw s
  have howns : raw.owns s = textAt raw.id s.id * R := hR raw.id s.id
  rw [howns]
  cases raw.id with
  | none =>
    cases s.id with
    | none => simp
    | some t => simp [textAt, Quantale.bot_mul]
  | some a =>
    cases s.id with
    | none => simp [textAt, Quantale.bot_mul]
    | some t => simp

theorem owns_blank (h : raw.Same s) :
    RawSession.owns { Raw.sessionInit with
        state := raw.state, expiresAt := raw.expiresAt, hasExpires := raw.hasExpires, createdAt := raw.createdAt }
      { sessionInit with
        state := s.state, expiresAt := s.expiresAt, hasExpires := s.hasExpires, createdAt := s.createdAt } = 1 := by
  obtain ⟨hstate, hexpires, hhas, hcreated⟩ := h
  simp [RawSession.owns, RawSession.Same, Raw.sessionInit, sessionInit, textAt, hstate, hexpires, hhas, hcreated]

/-- A copy ends where a field fails. -/
theorem copyGuard {rc : Int} {k : OnHeap (Int × RawSession)} {k' : Prog Sys (Int × Session)}
    (hr : Refines (dest.owns d * P) k k' fun r r' => sessionResult r r' * P) :
    Refines (dest.owns d * P) (if rc ≠ 0 then pure (-1, dest) else k) (if rc ≠ 0 then pure (-1, d) else k')
      fun r r' => sessionResult r r' * P := by
  by_cases hrc : rc ≠ 0
  · rw [if_pos hrc, if_pos hrc]
    refine .pure ?_
    simp [sessionResult]
  · rw [if_neg hrc, if_neg hrc]
    exact hr

/-- **A copy has its own strings**, and what `dest` had is freed. -/
theorem refines_sessionCopy (dest src : RawSession) (d s : Session) :
    Refines (dest.owns d * src.owns s) (Raw.sessionCopy dest src) (sessionCopy s) fun r r' =>
      sessionResult r r' * src.owns s := by
  refine sessionFree_bind ?_
  rw [owns_same src s]
  refine .exists_pre fun hsame => ?_
  simp only [hsame, iSup_pos]
  refine .pre ?_ (le_of_eq (one_mul (src.owns s)).symm)
  rw [← owns_blank hsame]
  refine copyField_bind (isField_id _ _) (isField_id src s) rfl rfl rfl rfl fun rc dest d => copyGuard ?_
  refine copyField_bind (isField_userId dest d) (isField_userId src s) rfl rfl rfl rfl fun rc dest d => copyGuard ?_
  refine copyField_bind (isField_publicKey dest d) (isField_publicKey src s) rfl rfl rfl rfl fun rc dest d => copyGuard ?_
  refine copyField_bind (isField_algorithm dest d) (isField_algorithm src s) rfl rfl rfl rfl fun rc dest d => copyGuard ?_
  refine copyField_bind (isField_challenge dest d) (isField_challenge src s) rfl rfl rfl rfl fun rc dest d => copyGuard ?_
  refine .pure ?_
  simp [sessionResult]

end

end OpenDbsc
