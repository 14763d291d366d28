/-
The store interface (`store/store.h`) and what a store is for.

A manager calls its store through six function pointers; `StoreSig` is that
interface. `SessionMap` is the purpose of a store, as a finite map from ids to
sessions, and `SessionMap.Answers` what each call answers and leaves there.
-/
import OpenDbsc.Effects.Link
import OpenDbsc.Effects.Run
import OpenDbsc.Records.Table
import OpenDbsc.Session

namespace OpenDbsc

open Effects Records

/-- The calls of `OpenDBSC_Store`. A string is `none` when the pointer is null. -/
inductive StoreOp where
  | create (session : Session)
  | get (id : Option CStr)
  | update (session : Session)
  | delete (id : Option CStr)
  | getByUserId (userId : Option CStr)
  | deleteByUserId (userId : Option CStr)

/-- A return code, or what the out parameter holds when the code is 0. -/
@[reducible] def StoreOp.Ans : StoreOp → Type
  | .create _ => Int
  | .get _ => Option Session
  | .update _ => Int
  | .delete _ => Int
  | .getByUserId _ => Option (List Session)
  | .deleteByUserId _ => Int

abbrev StoreSig : Sig := ⟨StoreOp, StoreOp.Ans⟩

def readingOf : Event Sys → Option Int
  | ⟨.time, now⟩ => some now
  | _ => none

/-- The clock readings among the events. -/
def readings (tr : List (Event Sys)) : List Int := tr.filterMap readingOf

/-- Past its expiry at clock value `now`; the second of the expiry itself is not. -/
def Session.expiredAt (s : Session) (now : Int) : Bool := s.hasExpires && decide (now > s.expiresAt)

theorem Session.expiredAt_eq_false {s : Session} {now : Int} :
    s.expiredAt now = false ↔ (s.hasExpires = true → now ≤ s.expiresAt) := by
  unfold expiredAt
  cases s.hasExpires with
  | false => simp
  | true => simp

/-! ## The abstract store -/

abbrev SessionMap := Table Session.id

namespace SessionMap

/-- What a call answers, and what it leaves, when `now s` is the clock value at
which a session `s` it looks at is judged. -/
def Answers (now : Session → Int) (m : SessionMap) : (o : StoreOp) → StoreOp.Ans o → SessionMap → Prop
  | .create s, rc, m' => match s.id with
    | none => rc = -1 ∧ m' = m
    | some _ => rc = 0 ∧ m' = m.insert s
  | .get id, out, m' => match m.lookup id with
    | none => out = none ∧ m' = m
    | some s => if s.expiredAt (now s) then out = none ∧ m' = m.erase id else out = some s ∧ m' = m
  | .update s, rc, m' => match m.lookup s.id with
    | none => rc = -1 ∧ m' = m
    | some _ => rc = 0 ∧ m' = m.insert s
  | .delete id, rc, m' => rc = 0 ∧ m' = m.erase id
  | .getByUserId none, out, m' => out = none ∧ m' = m
  | .getByUserId (some user), out, m' => m' = m.filter (fun s => s.expiredAt (now s) = false) ∧
      ∃ found : List Session, out = some found ∧ (found : Multiset Session) = m'.rows.filter (·.userId = some user)
  | .deleteByUserId none, rc, m' => rc = 0 ∧ m' = m
  | .deleteByUserId (some user), rc, m' => rc = 0 ∧ m' = m.filter (·.userId ≠ some user)

/-- The sessions whose expiry a call looks at. -/
def Examines : StoreOp → Session → Prop
  | .get id, s => s.id = id
  | .getByUserId (some _), _ => True
  | _, _ => False

/-- The abstract store, in an environment whose clock gives `readings tr`
during the call: each expiry looked at is judged at one of them, and a call
that looks at none does not read the clock. -/
def store : Comp Sys StoreSig SessionMap := fun o m tr x m' =>
  ((∀ s, ¬ Examines o s) → readings tr = []) ∧
    ∃ now : Session → Int, (∀ s ∈ m.rows, Examines o s → s.hasExpires = true → now s ∈ readings tr) ∧
      m.Answers now o x m'

end SessionMap

end OpenDbsc
