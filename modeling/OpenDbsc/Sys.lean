/-
What the library asks of the C runtime, and C strings.

Every source of nondeterminism is an operation: the clock, the entropy pool,
each allocation, and the application's event callback. Undefined behaviour
(a null pointer passed to `strcmp`) is an operation without an answer.
-/
import Mathlib.Algebra.Group.Int.Defs
import Mathlib.Algebra.GroupWithZero.Nat
import OpenDbsc.Effects.Total

namespace OpenDbsc

open Effects

/-- A C string, its terminator left out; each character is one byte. -/
abbrev CStr := List Char

instance : Coe String CStr := ⟨String.toList⟩

/-- The bytes of a C string up to its terminator. -/
structure CString where
  bytes : CStr
  noNul : '\x00' ∉ bytes

/-- The C string in a buffer that holds these bytes and a NUL. -/
def untilNul (bytes : List Char) : CStr := bytes.takeWhile (· ≠ '\x00')

/-- The bytes of a C string. -/
def bytesOf (s : CStr) : List UInt8 := s.map fun c => UInt8.ofNat c.toNat

inductive SysOp where
  /-- `time(NULL)`. -/
  | time
  /-- `clock_gettime(CLOCK_REALTIME, ..)`: seconds and nanoseconds. -/
  | clockGettime
  /-- `getentropy` for `n` bytes. -/
  | getentropy (n : Nat)
  /-- `malloc` or `realloc` of `size` bytes: whether it succeeds. -/
  | malloc (size : Nat)
  /-- An allocation inside cJSON or OpenSSL: whether it succeeds. -/
  | library
  /-- The application's `on_event` callback. -/
  | onEvent (type : CStr) (user sessionId detail : Option CStr)
  /-- Undefined behaviour. -/
  | undefined
  deriving DecidableEq

@[reducible] def SysOp.Ans : SysOp → Type
  | .time => Int
  | .clockGettime => Option (Nat × Nat)
  | .getentropy n => Option { b : List UInt8 // b.length = n }
  | .malloc _ => Bool
  | .library => Bool
  | .onEvent .. => Unit
  | .undefined => Empty

abbrev Sys : Sig := ⟨SysOp, SysOp.Ans⟩

def time : Prog Sys Int := .perform (S := Sys) .time

def clockGettime : Prog Sys (Option (Nat × Nat)) := .perform (S := Sys) .clockGettime

def getentropy (n : Nat) : Prog Sys (Option { b : List UInt8 // b.length = n }) :=
  .perform (S := Sys) (.getentropy n)

def malloc (size : Nat) : Prog Sys Bool := .perform (S := Sys) (.malloc size)

def libraryAlloc : Prog Sys Bool := .perform (S := Sys) .library

def onEvent (type : CStr) (user sessionId detail : Option CStr) : Prog Sys Unit :=
  .perform (S := Sys) (.onEvent type user sessionId detail)

def undefinedBehavior {α : Type} : Prog Sys α := .op (S := Sys) .undefined fun x => nomatch x

theorem undefined_bind {α β : Type} (f : α → Prog Sys β) : (undefinedBehavior >>= f) = undefinedBehavior := by
  rw [undefinedBehavior, Prog.op_bind, undefinedBehavior]
  congr 1
  funext x
  nomatch x

theorem undefined_ne_pure {α : Type} (a : α) : (undefinedBehavior : Prog Sys α) ≠ pure a := nofun

theorem malloc_bind_congr {α : Type} {n : Nat} {f g : Bool → Prog Sys α} (htrue : f true = g true)
    (hfalse : f false = g false) : malloc n >>= f = malloc n >>= g := by
  congr 1
  funext ok
  cases ok with
  | false => exact hfalse
  | true => exact htrue

def strdup (s : CStr) : Prog Sys (Option CStr) := do
  if ← malloc (s.length + 1) then pure (some s) else pure none

/-- `printf`'s `%s`, which glibc prints as `(null)` for a null pointer. -/
def percentS (s : Option CStr) : CStr := s.getD "(null)"

/-- `printf`'s `%d`. -/
def percentD (n : Int) : CStr := (toString n).toList

/-- `printf`'s `%x`, one digit. -/
def hexDigit (n : Nat) : Char := if n < 10 then Char.ofNat ('0'.toNat + n) else Char.ofNat ('a'.toNat + (n - 10))

/-- `printf`'s `%02x`, of a byte. -/
def percent02x (b : UInt8) : CStr := [hexDigit (b.toNat / 16), hexDigit (b.toNat % 16)]

/-! ## Whatever is answered -/

theorem anyAnswer_malloc {n : Nat} {Q : Bool → Prop} :
    Prog.Returns Prog.AnyAnswer (malloc n) Q ↔ Q true ∧ Q false :=
  ⟨fun h => ⟨h.2 true trivial, h.2 false trivial⟩,
    fun h => ⟨⟨true, trivial⟩, fun b _ => Bool.rec h.2 h.1 b⟩⟩

theorem anyAnswer_undefined {α : Type} {Q : α → Prop} :
    ¬ Prog.Returns Prog.AnyAnswer (undefinedBehavior : Prog Sys α) Q :=
  fun h => h.1.elim fun x _ => nomatch x

theorem anyAnswer_strdup {s : CStr} {Q : Option CStr → Prop} :
    Prog.Returns Prog.AnyAnswer (strdup s) Q ↔ Q (some s) ∧ Q none := by
  simp [strdup, Prog.returns_bind, anyAnswer_malloc]

/-! ## Allocations that succeed -/

/-- Every allocation answered with success. -/
def allocOk : (o : Sys.Op) → Option (Sys.Ans o)
  | .malloc _ => some true
  | .library => some true
  | _ => none

@[simp] theorem assuming_malloc (n : Nat) : (malloc n).assuming allocOk = pure true :=
  Prog.assuming_perform_some (f := allocOk) (o := SysOp.malloc n) rfl

@[simp] theorem assuming_libraryAlloc : libraryAlloc.assuming allocOk = pure true :=
  Prog.assuming_perform_some (f := allocOk) (o := SysOp.library) rfl

@[simp] theorem assuming_time : time.assuming allocOk = time :=
  Prog.assuming_perform_none (f := allocOk) (o := SysOp.time) rfl

@[simp] theorem assuming_clockGettime : clockGettime.assuming allocOk = clockGettime :=
  Prog.assuming_perform_none (f := allocOk) (o := SysOp.clockGettime) rfl

@[simp] theorem assuming_getentropy (n : Nat) : (getentropy n).assuming allocOk = getentropy n :=
  Prog.assuming_perform_none (f := allocOk) (o := SysOp.getentropy n) rfl

@[simp] theorem assuming_onEvent (type : CStr) (user sessionId detail : Option CStr) :
    (onEvent type user sessionId detail).assuming allocOk = onEvent type user sessionId detail :=
  Prog.assuming_perform_none (f := allocOk) (o := SysOp.onEvent type user sessionId detail) rfl

@[simp] theorem assuming_undefinedBehavior {α : Type} :
    (undefinedBehavior : Prog Sys α).assuming allocOk = undefinedBehavior := by
  rw [undefinedBehavior, Prog.assuming_op_none (f := allocOk) rfl]
  congr 1
  funext x
  nomatch x

@[simp] theorem assuming_strdup (s : CStr) : (strdup s).assuming allocOk = pure (some s) := by
  simp [strdup]

end OpenDbsc
