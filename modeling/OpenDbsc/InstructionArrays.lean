/-
`protocol/instruction.c` again, with its three growable arrays as memory.

An array is a block of slots, a count and a capacity. `grow_array` computes in
`size_t`, and no block is larger than `PTRDIFF_MAX` bytes, so a capacity that
would wrap is never asked for. A new element is copied in place, field by
field, behind the elements the count tells of; only when all of its fields
are there is it counted. Writing outside a block and releasing a slot that was
never written have no answer.
-/
import OpenDbsc.Effects.Alike
import OpenDbsc.Effects.Run
import OpenDbsc.Instruction
import OpenDbsc.Records.Block

namespace OpenDbsc

open Effects Prog Records

/-- `SIZE_MAX + 1` on LP64. -/
def sizeModulus : Nat := 2 ^ 64

/-- The largest block `malloc` and `realloc` give. -/
def ptrdiffMax : Nat := 2 ^ 63 - 1

def realloc (size : Nat) : Prog Sys Bool := if size ≤ ptrdiffMax then malloc size else pure false

/-- A growable array of `instruction.c`. -/
structure GrowableArray (α : Type) where
  slots : Block α
  count : Nat
  capacity : Nat

namespace GrowableArray

variable {α : Type}

def init : GrowableArray α := ⟨[], 0, 0⟩

def newCapacity (array : GrowableArray α) : Nat :=
  if array.capacity = 0 then 4 else array.capacity * 2 % sizeModulus

/-- `grow_array`. -/
def grow (array : GrowableArray α) (elemSize : Nat) : Prog Sys (Int × GrowableArray α) :=
  if array.count < array.capacity then pure (0, array)
  else do
    let size := array.newCapacity * elemSize % sizeModulus
    if ← realloc size then
      pure (0, { array with slots := array.slots.resize (size / elemSize), capacity := array.newCapacity })
    else pure (-1, array)

/-- `array[i] = x`. -/
def write (array : GrowableArray α) (i : Nat) (x : α) : Prog Sys (GrowableArray α) :=
  match array.slots.store i x with
  | some slots => pure { array with slots }
  | none => undefinedBehavior

/-- `*dst`, of a slot that was written. -/
def read (array : GrowableArray α) (i : Nat) : Prog Sys α :=
  match array.slots.load i with
  | some x => pure x
  | none => undefinedBehavior

/-- A setter called on `&array[i]`. -/
def setAt (array : GrowableArray α) (i : Nat) (set : α → Prog Sys (Int × α)) : Prog Sys (Int × GrowableArray α) := do
  let dst ← array.read i
  let (rc, dst) ← set dst
  let array ← array.write i dst
  return (rc, array)

/-- The setters on `&array[i]` in order, up to the first that fails. -/
def setFields (array : GrowableArray α) (i : Nat) :
    List (α → Prog Sys (Int × α)) → Prog Sys (Int × GrowableArray α)
  | [] => pure (0, array)
  | set :: rest => do
    let (rc, array) ← array.setAt i set
    if rc ≠ 0 then return (rc, array)
    array.setFields i rest

/-- `.._free(&array[i])`: the fields are released, and reset. -/
def release (array : GrowableArray α) (i : Nat) (empty : α) : Prog Sys (GrowableArray α) := do
  let _ ← array.read i
  array.write i empty

/-- A new element: an empty one in the next slot, its fields set one by one,
counted at the end. -/
def addCopy (array : GrowableArray α) (elemSize : Nat) (empty : α) (setters : List (α → Prog Sys (Int × α))) :
    Prog Sys (Int × GrowableArray α) := do
  let (rc, array) ← array.grow elemSize
  if rc ≠ 0 then return (-1, array)
  let array ← array.write array.count empty
  let (rc, array) ← array.setFields array.count setters
  if rc ≠ 0 then
    let array ← array.release array.count empty
    return (-1, array)
  return (0, { array with count := array.count + 1 })

end GrowableArray

def ruleInit : ScopeRule := ⟨none, none, none⟩

def ruleSetType (rule : ScopeRule) (value : Option CStr) : Prog Sys (Int × ScopeRule) := do
  let (rc, type) ← Instruction.setString rule.type value
  pure (rc, { rule with type })

def ruleSetDomain (rule : ScopeRule) (value : Option CStr) : Prog Sys (Int × ScopeRule) := do
  let (rc, domain) ← Instruction.setString rule.domain value
  pure (rc, { rule with domain })

def ruleSetPath (rule : ScopeRule) (value : Option CStr) : Prog Sys (Int × ScopeRule) := do
  let (rc, path) ← Instruction.setString rule.path value
  pure (rc, { rule with path })

/-- `sizeof(OpenDBSC_ScopeRule)` on LP64. -/
def sizeofRule : Nat := 24

/-- `sizeof(char *)` on LP64. -/
def sizeofPointer : Nat := 8

/-- The three arrays of an instruction; the rules' is its scope's. -/
structure InstructionArrays where
  credentials : GrowableArray SessionCredential
  allowedRefreshInitiators : GrowableArray CStr
  specification : GrowableArray ScopeRule

namespace InstructionArrays

/-- `opendbsc_instruction_init`. -/
def init : InstructionArrays := ⟨.init, .init, .init⟩

/-- `opendbsc_instruction_add_refresh_initiator`. -/
def addRefreshInitiator (instruction : InstructionArrays) (origin : Option CStr) :
    Prog Sys (Int × InstructionArrays) := do
  let some origin := origin | return (-1, instruction)
  let (rc, array) ← instruction.allowedRefreshInitiators.grow sizeofPointer
  let instruction := { instruction with allowedRefreshInitiators := array }
  if rc ≠ 0 then return (-1, instruction)
  let some copy ← strdup origin | return (-1, instruction)
  let array ← array.write array.count copy
  return (0, { instruction with allowedRefreshInitiators := { array with count := array.count + 1 } })

/-- `opendbsc_instruction_add_credential`. -/
def addCredential (instruction : InstructionArrays) (credential : Option SessionCredential) :
    Prog Sys (Int × InstructionArrays) := do
  let some credential := credential | return (-1, instruction)
  let (rc, credentials) ← instruction.credentials.addCopy sizeofCredential credentialInit
    [(credentialSetType · credential.type), (credentialSetName · credential.name),
      (credentialSetAttributes · credential.attributes)]
  return (rc, { instruction with credentials })

/-- `opendbsc_scope_add_rule`, on the instruction's scope. -/
def addRule (instruction : InstructionArrays) (rule : Option ScopeRule) : Prog Sys (Int × InstructionArrays) := do
  let some rule := rule | return (-1, instruction)
  let (rc, specification) ← instruction.specification.addCopy sizeofRule ruleInit
    [(ruleSetType · rule.type), (ruleSetDomain · rule.domain), (ruleSetPath · rule.path)]
  return (rc, { instruction with specification })

end InstructionArrays

/-! ## One array -/

theorem anyAnswer_realloc {size : Nat} {Q : Bool → Prop} (htrue : size ≤ ptrdiffMax → Q true) (hfalse : Q false) :
    Returns AnyAnswer (realloc size) Q := by
  unfold realloc
  split
  · rename_i hle
    exact anyAnswer_malloc.mpr ⟨htrue hle, hfalse⟩
  · exact hfalse

namespace GrowableArray

variable {α : Type} {array : GrowableArray α} {elemSize : Nat} {xs : List α} {x y : α}

/-- `array[0]` to `array[count - 1]`. -/
def elements (array : GrowableArray α) : List (Option α) := (List.range array.count).map array.slots.load

/-- The array holds `xs` in a block of its capacity. -/
structure Holds (array : GrowableArray α) (elemSize : Nat) (xs : List α) : Prop where
  starts : array.slots.Starts xs
  count : array.count = xs.length
  capacity : array.slots.length = array.capacity
  fits : array.capacity * elemSize ≤ ptrdiffMax

/-- And the slot behind them holds `x`. -/
structure Fills (array : GrowableArray α) (elemSize : Nat) (xs : List α) (x : α) : Prop extends
    Holds array elemSize xs where
  slot : array.slots.load array.count = some x

theorem holds_init : (init : GrowableArray α).Holds elemSize [] := ⟨.nil, rfl, rfl, by simp [init]⟩

theorem Holds.elements (h : array.Holds elemSize xs) : array.elements = xs.map some := by
  rw [GrowableArray.elements, h.count]
  exact h.starts.map_load

theorem Holds.count_le (h : array.Holds elemSize xs) : array.count ≤ array.capacity := by
  have hle := h.starts.length_le
  have hcount := h.count
  have hcapacity := h.capacity
  omega

/-- A capacity that is doubled was a block's, so `size_t` has room for it. -/
theorem newCapacity_fits (hfits : array.capacity * elemSize ≤ ptrdiffMax) (hsize : 0 < elemSize)
    (hfour : 4 * elemSize < sizeModulus) :
    array.capacity < array.newCapacity ∧ array.newCapacity * elemSize < sizeModulus := by
  unfold newCapacity
  split
  · omega
  · have hle : array.capacity ≤ array.capacity * elemSize := Nat.le_mul_of_pos_right _ hsize
    have hswap : array.capacity * 2 * elemSize = array.capacity * elemSize * 2 := Nat.mul_right_comm ..
    unfold ptrdiffMax at hfits
    unfold sizeModulus
    rw [Nat.mod_eq_of_lt (by omega), hswap]
    omega

theorem Holds.grow (h : array.Holds elemSize xs) (hsize : 0 < elemSize) (hfour : 4 * elemSize < sizeModulus) :
    Returns AnyAnswer (array.grow elemSize) fun r =>
      (r.1 = 0 ∧ r.2.Holds elemSize xs ∧ r.2.count < r.2.capacity) ∨ (r.1 = -1 ∧ r.2.Holds elemSize xs) := by
  unfold GrowableArray.grow
  split
  · rename_i hroom
    exact .inl ⟨rfl, h, hroom⟩
  · obtain ⟨hlt, hmod⟩ := newCapacity_fits h.fits hsize hfour
    have hcount := h.count_le
    simp only [Nat.mod_eq_of_lt hmod, Nat.mul_div_cancel _ hsize]
    rw [returns_bind]
    refine anyAnswer_realloc (fun hle => .inl ⟨rfl, ⟨?_, h.count, ?_, hle⟩, ?_⟩) (.inr ⟨rfl, h⟩)
    · exact h.starts.resize (by rw [h.capacity]; omega)
    · simp
    · simpa using by omega

/-- The next slot written. -/
theorem Holds.write (h : array.Holds elemSize xs) (hroom : array.count < array.capacity) (x : α) :
    ∃ array', array.write array.count x = pure array' ∧ array'.Fills elemSize xs x ∧ array'.count = array.count ∧
      array'.capacity = array.capacity := by
  have hlt : array.count < array.slots.length := by rw [h.capacity]; exact hroom
  have hstore := Block.store_of_lt (x := x) hlt
  have hwrite : array.write array.count x = pure { array with slots := array.slots.set array.count (some x) } := by
    rw [GrowableArray.write, hstore]
  refine ⟨_, hwrite, ⟨⟨?_, h.count, ?_, h.fits⟩, ?_⟩, rfl, rfl⟩
  · exact h.starts.store (Nat.le_of_eq h.count.symm) hstore
  · rw [← h.capacity]
    exact Block.length_store hstore
  · exact Block.load_store hstore

theorem Fills.room (h : array.Fills elemSize xs x) : array.count < array.capacity := by
  rw [← h.capacity]
  exact Block.lt_of_load h.slot

/-- Once it is counted, the new element is one of the array's. -/
theorem Fills.counted (h : array.Fills elemSize xs x) :
    { array with count := array.count + 1 : GrowableArray α }.Holds elemSize (xs ++ [x]) := by
  refine ⟨h.starts.snoc ?_, by simp [h.count], h.capacity, h.fits⟩
  rw [← h.count]
  exact h.slot

/-- The setters on a value that no array holds. -/
def copyFields (dst : α) : List (α → Prog Sys (Int × α)) → Prog Sys (Int × α)
  | [] => pure (0, dst)
  | set :: rest => do
    let (rc, dst) ← set dst
    if rc ≠ 0 then return (rc, dst)
    copyFields dst rest

/-- A slot behind the elements of `array` that a program leaves holding what
the other returns. -/
def InSlot (array : GrowableArray α) (elemSize : Nat) (xs : List α) (r : Int × GrowableArray α) (r' : Int × α) :
    Prop :=
  r.1 = r'.1 ∧ r.2.Fills elemSize xs r'.2 ∧ r.2.count = array.count ∧ r.2.capacity = array.capacity

theorem Fills.setAt (h : array.Fills elemSize xs x) (set : α → Prog Sys (Int × α)) :
    Alike (array.InSlot elemSize xs) (array.setAt array.count set) (set x) := by
  rw [← bind_pure (set x), GrowableArray.setAt, GrowableArray.read, h.slot, pure_bind]
  refine alike_bind ?_
  rintro ⟨rc, dst⟩
  obtain ⟨array', hwrite, hfills, hkept⟩ := h.write h.room dst
  simp only [hwrite, pure_bind]
  exact alike_pure ⟨rfl, hfills, hkept⟩

theorem Fills.setFields (sets : List (α → Prog Sys (Int × α))) {array : GrowableArray α} {x : α}
    (h : array.Fills elemSize xs x) :
    Alike (array.InSlot elemSize xs) (array.setFields array.count sets) (copyFields x sets) := by
  induction sets generalizing array x with
  | nil => exact alike_pure ⟨rfl, h, rfl, rfl⟩
  | cons set rest ih =>
    refine (h.setAt set).bind ?_
    rintro ⟨rc, array'⟩ ⟨rc', dst⟩ ⟨hrc, hfills, hcount, hcapacity⟩
    dsimp only at hrc hfills hcount hcapacity ⊢
    subst hrc
    split
    · exact alike_pure ⟨rfl, hfills, hcount, hcapacity⟩
    · have hsame : array'.InSlot elemSize xs = array.InSlot elemSize xs := by
        funext r r'
        simp [InSlot, hcount, hcapacity]
      have halike := ih hfills
      rwa [hsame, hcount] at halike

/-- A setter that either writes its field or fails. -/
def Sets (set : α → Prog Sys (Int × α)) (f : α → α) : Prop :=
  ∀ dst, Returns AnyAnswer (set dst) fun r => (r.1 = 0 ∧ r.2 = f dst) ∨ r.1 ≠ 0

theorem returns_copyFields {sets : List (α → Prog Sys (Int × α))} {fs : List (α → α)}
    (hsets : List.Forall₂ Sets sets fs) (x : α) :
    Returns AnyAnswer (copyFields x sets) fun r => (r.1 = 0 ∧ r.2 = fs.foldl (fun x f => f x) x) ∨ r.1 ≠ 0 := by
  induction hsets generalizing x with
  | nil => exact .inl ⟨rfl, rfl⟩
  | cons hset _ ih =>
    refine (hset x).bind ?_
    rintro ⟨rc, dst⟩ hr
    dsimp only at hr ⊢
    rcases hr with ⟨rfl, rfl⟩ | hrc
    · exact ih _
    · rw [if_pos hrc]
      exact .inr hrc

/-- **An array gains a whole element, or keeps what it holds.** -/
theorem Holds.addCopy {sets : List (α → Prog Sys (Int × α))} {fs : List (α → α)} (hsets : List.Forall₂ Sets sets fs)
    (h : array.Holds elemSize xs) (hsize : 0 < elemSize) (hfour : 4 * elemSize < sizeModulus) (empty : α) :
    Returns AnyAnswer (array.addCopy elemSize empty sets) fun r =>
      (r.1 = 0 ∧ r.2.Holds elemSize (xs ++ [fs.foldl (fun x f => f x) empty])) ∨
        (r.1 = -1 ∧ r.2.Holds elemSize xs) := by
  rw [GrowableArray.addCopy]
  refine (h.grow hsize hfour).bind ?_
  rintro ⟨rc, grown⟩ hgrown
  dsimp only at hgrown ⊢
  rcases hgrown with ⟨rfl, hholds, hroom⟩ | ⟨rfl, hholds⟩
  · obtain ⟨opened, hwrite, hfills, -⟩ := hholds.write hroom empty
    rw [if_neg (by omega), hwrite, pure_bind]
    refine ((hfills.setFields sets).returns (returns_copyFields hsets empty)).bind ?_
    rintro ⟨rc, copied⟩ ⟨⟨rc', dst⟩, ⟨hrc', hset, -⟩, hcopied⟩
    dsimp only at hrc' hset hcopied ⊢
    subst hrc'
    rcases hcopied with ⟨rfl, rfl⟩ | hrc
    · rw [if_neg (by omega)]
      exact .inl ⟨rfl, hset.counted⟩
    · obtain ⟨reset, hreset, hempty, -⟩ := hset.write hset.room empty
      rw [if_pos hrc, GrowableArray.release, GrowableArray.read, hset.slot]
      simp only [pure_bind, hreset]
      exact .inr ⟨rfl, hempty.toHolds⟩
  · rw [if_pos (by omega)]
    exact .inr ⟨rfl, hholds⟩

end GrowableArray

/-! ## An instruction -/

theorem anyAnswer_setString {field value : Option CStr} {Q : Int × Option CStr → Prop} (h0 : Q (0, value))
    (h1 : Q (-1, field)) : Returns AnyAnswer (Instruction.setString field value) Q := by
  cases value with
  | none => exact h0
  | some value =>
    rw [Instruction.setString, returns_bind]
    exact anyAnswer_strdup.mpr ⟨h0, h1⟩

/-- A setter made of `set_string`. -/
theorem sets_field {α : Type} (get : α → Option CStr) (put : α → Option CStr → α) (value : Option CStr) :
    GrowableArray.Sets (fun x => do
      let (rc, field) ← Instruction.setString (get x) value
      pure (rc, put x field)) (put · value) := by
  intro x
  rw [returns_bind]
  exact anyAnswer_setString (.inl ⟨rfl, rfl⟩) (.inr (by simp))

namespace InstructionArrays

/-- What the three arrays hold. -/
structure Lists where
  credentials : List SessionCredential
  allowedRefreshInitiators : List CStr
  specification : List ScopeRule

structure Hold (instruction : InstructionArrays) (lists : Lists) : Prop where
  credentials : instruction.credentials.Holds sizeofCredential lists.credentials
  allowedRefreshInitiators : instruction.allowedRefreshInitiators.Holds sizeofPointer lists.allowedRefreshInitiators
  specification : instruction.specification.Holds sizeofRule lists.specification

theorem hold_init : init.Hold ⟨[], [], []⟩ :=
  ⟨GrowableArray.holds_init, GrowableArray.holds_init, GrowableArray.holds_init⟩

end InstructionArrays

inductive InstructionCall where
  | addCredential (credential : Option SessionCredential)
  | addRefreshInitiator (origin : Option CStr)
  | addRule (rule : Option ScopeRule)

namespace InstructionCall

def run : InstructionCall → InstructionArrays → Prog Sys (Int × InstructionArrays)
  | addCredential credential, instruction => instruction.addCredential credential
  | addRefreshInitiator origin, instruction => instruction.addRefreshInitiator origin
  | addRule rule, instruction => instruction.addRule rule

/-- The call's argument, if it is a credential. -/
def credential : InstructionCall → Option SessionCredential
  | addCredential credential => credential
  | _ => none

def origin : InstructionCall → Option CStr
  | addRefreshInitiator origin => origin
  | _ => none

def rule : InstructionCall → Option ScopeRule
  | addRule rule => rule
  | _ => none

/-- The lists with the call's argument at the end of its own. -/
def addTo (call : InstructionCall) (lists : InstructionArrays.Lists) : InstructionArrays.Lists where
  credentials := lists.credentials ++ call.credential.toList
  allowedRefreshInitiators := lists.allowedRefreshInitiators ++ call.origin.toList
  specification := lists.specification ++ call.rule.toList

/-- The argument is not a null pointer. -/
def Given (call : InstructionCall) : Prop :=
  call.credential.isSome ∨ call.origin.isSome ∨ call.rule.isSome

/-- A call with its return code. -/
def Step (instruction : InstructionArrays) (label : InstructionCall × Int) (instruction' : InstructionArrays) : Prop :=
  ∃ tr, Trace (label.1.run instruction) tr (label.2, instruction')

end InstructionCall

namespace InstructionArrays

variable {instruction : InstructionArrays} {lists : Lists}

/-- What a call on an instruction that holds `lists` is sure to do. -/
def Keeps (call : InstructionCall) (lists : Lists) (r : Int × InstructionArrays) : Prop :=
  (r.1 = 0 ∧ call.Given ∧ r.2.Hold (call.addTo lists)) ∨ (r.1 = -1 ∧ r.2.Hold lists)

theorem Hold.addCredential (h : instruction.Hold lists) (credential : Option SessionCredential) :
    Returns AnyAnswer (instruction.addCredential credential) (Keeps (.addCredential credential) lists) := by
  cases credential with
  | none => exact .inr ⟨rfl, h⟩
  | some credential =>
    have hsets : List.Forall₂ GrowableArray.Sets
        [(credentialSetType · credential.type), (credentialSetName · credential.name),
          (credentialSetAttributes · credential.attributes)]
        [({ · with type := credential.type }), ({ · with name := credential.name }),
          ({ · with attributes := credential.attributes })] :=
      .cons (sets_field SessionCredential.type (fun dst type => { dst with type }) _) <|
      .cons (sets_field SessionCredential.name (fun dst name => { dst with name }) _) <|
      .cons (sets_field SessionCredential.attributes (fun dst attributes => { dst with attributes }) _) .nil
    refine (h.credentials.addCopy hsets (by decide) (by decide) credentialInit).bind ?_
    rintro ⟨rc, credentials⟩ hr
    rcases hr with ⟨hrc, hholds⟩ | ⟨hrc, hholds⟩
    · refine .inl ⟨hrc, by simp [InstructionCall.Given, InstructionCall.credential], hholds, ?_, ?_⟩
      · simpa [InstructionCall.addTo, InstructionCall.origin] using h.allowedRefreshInitiators
      · simpa [InstructionCall.addTo, InstructionCall.rule] using h.specification
    · exact .inr ⟨hrc, hholds, h.allowedRefreshInitiators, h.specification⟩

theorem Hold.addRule (h : instruction.Hold lists) (rule : Option ScopeRule) :
    Returns AnyAnswer (instruction.addRule rule) (Keeps (.addRule rule) lists) := by
  cases rule with
  | none => exact .inr ⟨rfl, h⟩
  | some rule =>
    have hsets : List.Forall₂ GrowableArray.Sets
        [(ruleSetType · rule.type), (ruleSetDomain · rule.domain), (ruleSetPath · rule.path)]
        [({ · with type := rule.type }), ({ · with domain := rule.domain }), ({ · with path := rule.path })] :=
      .cons (sets_field ScopeRule.type (fun dst type => { dst with type }) _) <|
      .cons (sets_field ScopeRule.domain (fun dst domain => { dst with domain }) _) <|
      .cons (sets_field ScopeRule.path (fun dst path => { dst with path }) _) .nil
    refine (h.specification.addCopy hsets (by decide) (by decide) ruleInit).bind ?_
    rintro ⟨rc, specification⟩ hr
    rcases hr with ⟨hrc, hholds⟩ | ⟨hrc, hholds⟩
    · refine .inl ⟨hrc, by simp [InstructionCall.Given, InstructionCall.rule], ?_, ?_, hholds⟩
      · simpa [InstructionCall.addTo, InstructionCall.credential] using h.credentials
      · simpa [InstructionCall.addTo, InstructionCall.origin] using h.allowedRefreshInitiators
    · exact .inr ⟨hrc, h.credentials, h.allowedRefreshInitiators, hholds⟩

theorem Hold.addRefreshInitiator (h : instruction.Hold lists) (origin : Option CStr) :
    Returns AnyAnswer (instruction.addRefreshInitiator origin) (Keeps (.addRefreshInitiator origin) lists) := by
  cases origin with
  | none => exact .inr ⟨rfl, h⟩
  | some origin =>
    refine (h.allowedRefreshInitiators.grow (by decide) (by decide)).bind ?_
    rintro ⟨rc, array⟩ hr
    dsimp only at hr ⊢
    rcases hr with ⟨rfl, hholds, hroom⟩ | ⟨rfl, hholds⟩
    · obtain ⟨array', hwrite, hfills, -⟩ := hholds.write hroom origin
      rw [if_neg (by omega), returns_bind]
      refine anyAnswer_strdup.mpr ⟨?_, .inr ⟨rfl, h.credentials, hholds, h.specification⟩⟩
      simp only [hwrite, pure_bind]
      refine .inl ⟨rfl, by simp [InstructionCall.Given, InstructionCall.origin], ?_, hfills.counted, ?_⟩
      · simpa [InstructionCall.addTo, InstructionCall.credential] using h.credentials
      · simpa [InstructionCall.addTo, InstructionCall.rule] using h.specification
    · rw [if_pos (by omega)]
      exact .inr ⟨rfl, h.credentials, hholds, h.specification⟩

theorem Hold.run (h : instruction.Hold lists) (call : InstructionCall) :
    Returns AnyAnswer (call.run instruction) (Keeps call lists) := by
  cases call with
  | addCredential credential => exact h.addCredential credential
  | addRefreshInitiator origin => exact h.addRefreshInitiator origin
  | addRule rule => exact h.addRule rule

/-! ## Runs -/

/-- The calls made on an instruction, each with what it returned. -/
abbrev Log := List (Transition InstructionArrays (InstructionCall × Int))

/-- The arguments, of one kind, of the calls that returned 0, in order. -/
def added {α : Type} (argument : InstructionCall → Option α) (log : Log) : List α :=
  log.filterMap fun t => if t.label.2 = 0 then argument t.label.1 else none

def addedLists (log : Log) : Lists where
  credentials := added InstructionCall.credential log
  allowedRefreshInitiators := added InstructionCall.origin log
  specification := added InstructionCall.rule log

theorem added_snoc {α : Type} (argument : InstructionCall → Option α) (log : Log)
    (t : Transition InstructionArrays (InstructionCall × Int)) :
    added argument (log ++ [t]) = added argument log ++ if t.label.2 = 0 then (argument t.label.1).toList else [] := by
  unfold added
  rw [List.filterMap_append]
  split
  · cases h : argument t.label.1 <;> simp_all
  · simp_all

theorem addedLists_snoc (log : Log) (t : Transition InstructionArrays (InstructionCall × Int)) :
    addedLists (log ++ [t]) = if t.label.2 = 0 then t.label.1.addTo (addedLists log) else addedLists log := by
  simp only [addedLists, added_snoc]
  split
  · rfl
  · simp

/-- The run lemma: an instruction holds what was added to it. -/
theorem hold_of_run {log : Log} (hrun : Run InstructionCall.Step init log instruction) :
    instruction.Hold (addedLists log) := by
  refine hrun.invariant (P := fun log instruction => instruction.Hold (addedLists log)) hold_init ?_
  rintro log s ⟨call, rc⟩ s' - h ⟨tr, ht⟩
  rw [addedLists_snoc]
  rcases (h.run call).trace ht fun _ _ => trivial with ⟨hrc, -, hhold⟩ | ⟨hrc, hhold⟩
  · rwa [if_pos hrc]
  · rwa [if_neg (by simp [show rc = -1 from hrc])]

/-- The elements of the three arrays. -/
def elements (instruction : InstructionArrays) :
    List (Option SessionCredential) × List (Option CStr) × List (Option ScopeRule) :=
  (instruction.credentials.elements, instruction.allowedRefreshInitiators.elements, instruction.specification.elements)

theorem Hold.elements (h : instruction.Hold lists) :
    instruction.elements = (lists.credentials.map some, lists.allowedRefreshInitiators.map some,
      lists.specification.map some) := by
  simp [InstructionArrays.elements, h.credentials.elements, h.allowedRefreshInitiators.elements,
    h.specification.elements]

/-- **An instruction's lists hold exactly what was added to them**, whatever
allocations fail, and every call returns. -/
theorem lists_exact {log : Log} (hrun : Run InstructionCall.Step init log instruction) :
    instruction.elements = ((added InstructionCall.credential log).map some, (added InstructionCall.origin log).map some,
      (added InstructionCall.rule log).map some) ∧
    (instruction.credentials.count ≤ instruction.credentials.capacity ∧
      instruction.allowedRefreshInitiators.count ≤ instruction.allowedRefreshInitiators.capacity ∧
      instruction.specification.count ≤ instruction.specification.capacity) ∧
    Throughout (fun _ t => t.label.2 = 0 ∧ t.label.1.Given ∨ t.label.2 = -1 ∧ t.post.elements = t.pre.elements) log ∧
    ∀ call : InstructionCall, Returns AnyAnswer (call.run instruction) fun _ => True := by
  have h := hold_of_run hrun
  refine ⟨h.elements, ⟨h.credentials.count_le, h.allowedRefreshInitiators.count_le, h.specification.count_le⟩, ?_, ?_⟩
  · refine hrun.throughout ?_
    rintro log s ⟨call, rc⟩ s' hrun ⟨tr, ht⟩
    have hs := hold_of_run hrun
    rcases (hs.run call).trace ht fun _ _ => trivial with ⟨hrc, hgiven, -⟩ | ⟨hrc, hhold⟩
    · exact .inl ⟨hrc, hgiven⟩
    · exact .inr ⟨hrc, hhold.elements.trans hs.elements.symm⟩
  · exact fun call => (h.run call).mono fun _ _ => trivial

/-- The calls in turn, the `n`-th in the environment `env n`. -/
def playAdditions (env : Nat → Nat → (o : Sys.Op) → Option (Sys.Ans o)) :
    List InstructionCall → Nat → InstructionArrays → Option (Log × InstructionArrays)
  | [], _, instruction => some ([], instruction)
  | call :: calls, n, instruction => (follow (env n) 0 (call.run instruction)).bind fun c =>
      (playAdditions env calls (n + 1) c.2.2).map fun r => (⟨instruction, (call, c.2.1), c.2.2⟩ :: r.1, r.2)

theorem run_playAdditions {env : Nat → Nat → (o : Sys.Op) → Option (Sys.Ans o)} {calls : List InstructionCall} {n : Nat}
    {instruction instruction' : InstructionArrays} {log : Log}
    (hplay : playAdditions env calls n instruction = some (log, instruction')) :
    Run InstructionCall.Step instruction log instruction' := by
  induction calls generalizing n instruction log with
  | nil =>
    cases hplay
    exact .init
  | cons call calls ih =>
    simp only [playAdditions, Option.bind_eq_some_iff, Option.map_eq_some_iff, Prod.ext_iff] at hplay
    obtain ⟨⟨tr, rc, after⟩, hcall, ⟨log', last⟩, hrest, rfl, rfl⟩ := hplay
    have hstep : InstructionCall.Step instruction (call, rc) after := ⟨tr, trace_follow hcall⟩
    exact .cons hstep (ih hrest)

/-- The third allocation of the first call fails. -/
def failsFirst (n i : Nat) : (o : Sys.Op) → Option (Sys.Ans o)
  | .malloc _ => some (decide (¬ (n = 0 ∧ i = 2)))
  | o => allocOk o

/-- The first credential is lost after its array has grown; a null origin is
refused; the rest is added, to all three lists. -/
theorem lists_exact_additions : ∃ log instruction, Run InstructionCall.Step init log instruction ∧
    (log.map fun t => (t.label.2, t.post.credentials.capacity)) =
      [(-1, 4), (0, 4), (0, 4), (0, 4), (-1, 4), (0, 4), (0, 4)] ∧
    instruction.elements =
      ([some ⟨some "cookie", some "auth", none⟩, some ⟨some "cookie", some "user", some "Path=/"⟩],
        [some ("https://a" : CStr), some ("https://b" : CStr)], [some ⟨some "exclude", none, some "/static"⟩]) := by
  have hplay : ∃ log instruction, playAdditions failsFirst
      [.addCredential (some ⟨some "cookie", some "lost", none⟩), .addRule (some ⟨some "exclude", none, some "/static"⟩),
        .addCredential (some ⟨some "cookie", some "auth", none⟩), .addRefreshInitiator (some "https://a"),
        .addRefreshInitiator none, .addCredential (some ⟨some "cookie", some "user", some "Path=/"⟩),
        .addRefreshInitiator (some "https://b")] 0 init = some (log, instruction) ∧
      (log.map fun t => (t.label.2, t.post.credentials.capacity)) =
        [(-1, 4), (0, 4), (0, 4), (0, 4), (-1, 4), (0, 4), (0, 4)] ∧
      added InstructionCall.credential log =
        [⟨some "cookie", some "auth", none⟩, ⟨some "cookie", some "user", some "Path=/"⟩] ∧
      added InstructionCall.origin log = ["https://a", "https://b"] ∧
      added InstructionCall.rule log = [⟨some "exclude", none, some "/static"⟩] := ⟨_, _, rfl, rfl, rfl, rfl, rfl⟩
  obtain ⟨log, instruction, hplay, hcalls, hcredentials, horigins, hrules⟩ := hplay
  have hrun := run_playAdditions hplay
  refine ⟨log, instruction, hrun, hcalls, ?_⟩
  rw [(lists_exact hrun).1, hcredentials, horigins, hrules]
  rfl

end InstructionArrays

/-! ## The model with lists -/

namespace GrowableArray

variable {α β : Type} {array : GrowableArray α} {elemSize : Nat} {xs : List α}

/-- What `grow_array` leaves of an array, and the new capacity. -/
def Grown (array : GrowableArray α) (elemSize : Nat) (xs : List α) (r : Int × GrowableArray α) : Option Nat → Prop
  | some capacity => r.1 = 0 ∧ r.2.Holds elemSize xs ∧ r.2.count < r.2.capacity ∧ r.2.capacity = capacity
  | none => r = (-1, array)

theorem Holds.grow_alike (h : array.Holds elemSize xs) (hsize : 0 < elemSize) (hfour : 4 * elemSize ≤ ptrdiffMax)
    (hfits : array.capacity * 2 * elemSize ≤ ptrdiffMax) :
    Alike (array.Grown elemSize xs) (array.grow elemSize) (growArray xs.length array.capacity elemSize) := by
  unfold GrowableArray.grow growArray
  rw [← h.count]
  by_cases hroom : array.count < array.capacity
  · rw [if_pos hroom, if_pos hroom]
    exact alike_pure ⟨rfl, h, hroom, rfl⟩
  · rw [if_neg hroom, if_neg hroom]
    have hle := h.count_le
    have hnew : array.newCapacity = if array.capacity = 0 then 4 else array.capacity * 2 := by
      have hdouble : array.capacity * 2 ≤ array.capacity * 2 * elemSize := Nat.le_mul_of_pos_right _ hsize
      rw [newCapacity, Nat.mod_eq_of_lt]
      unfold ptrdiffMax at hfits
      unfold sizeModulus
      omega
    have hblock : (if array.capacity = 0 then 4 else array.capacity * 2) * elemSize ≤ ptrdiffMax := by
      split
      · exact hfour
      · exact hfits
    have hmod : ptrdiffMax < sizeModulus := by decide
    simp only [hnew, Nat.mod_eq_of_lt (Nat.lt_of_le_of_lt hblock hmod), Nat.mul_div_cancel _ hsize, realloc,
      if_pos hblock]
    refine alike_bind fun ok => ?_
    cases ok with
    | false => exact alike_pure rfl
    | true =>
      have hlarger : array.capacity < if array.capacity = 0 then 4 else array.capacity * 2 := by
        split <;> omega
      refine alike_pure ⟨rfl, ⟨h.starts.resize ?_, h.count, Block.length_resize, hblock⟩, ?_, rfl⟩
      · rw [h.capacity]
        exact Nat.le_of_lt hlarger
      · exact Nat.lt_of_le_of_lt hle hlarger

theorem copyFields_nil_bind (x : α) (f : Int × α → Prog Sys β) : copyFields x [] >>= f = f (0, x) := rfl

theorem copyFields_cons_bind (x : α) (set : α → Prog Sys (Int × α)) (rest : List (α → Prog Sys (Int × α)))
    (f : Int × α → Prog Sys β) :
    copyFields x (set :: rest) >>= f = set x >>= fun r => if r.1 ≠ 0 then f r else copyFields r.2 rest >>= f := by
  rw [copyFields, bind_assoc]
  congr 1
  funext r
  by_cases hrc : r.1 = 0
  · simp [hrc]
  · simp [hrc]

end GrowableArray

theorem instructionAddCredential_eq (inst : SessionInstruction) (cred : SessionCredential) :
    instructionAddCredential inst cred =
      growArray inst.credentials.length inst.credentialsCapacity sizeofCredential >>= fun grown =>
        grown.elim (pure (-1, inst)) fun credentialsCapacity =>
          GrowableArray.copyFields credentialInit [(credentialSetType · cred.type), (credentialSetName · cred.name),
            (credentialSetAttributes · cred.attributes)] >>= fun r =>
            if r.1 ≠ 0 then pure (-1, { inst with credentialsCapacity })
            else pure (0, { inst with credentialsCapacity, credentials := inst.credentials ++ [r.2] }) := by
  unfold instructionAddCredential
  congr 1
  funext grown
  cases grown with
  | none => rfl
  | some capacity =>
    have hfailed : ∀ (rc : Int) (p q r : Prog Sys (Int × SessionInstruction)),
        (if rc ≠ 0 then if rc ≠ 0 then p else q else r) = if rc ≠ 0 then p else r := by
      intro rc p q r
      split <;> rfl
    simp only [Option.elim, GrowableArray.copyFields_cons_bind, GrowableArray.copyFields_nil_bind, hfailed]
    rfl

namespace InstructionArrays

variable {instruction : InstructionArrays}

/-- Adding a credential to the array is adding it to a list, as long as the
doubled array would fit in memory. -/
theorem addCredential_alike {inst : SessionInstruction}
    (h : instruction.credentials.Holds sizeofCredential inst.credentials)
    (hcapacity : instruction.credentials.capacity = inst.credentialsCapacity)
    (hfits : inst.credentialsCapacity * 2 * sizeofCredential ≤ ptrdiffMax) (credential : SessionCredential) :
    Alike (fun r r' => r.1 = r'.1 ∧ r.2.credentials.elements = r'.2.credentials.map some ∧
        r.2.credentials.capacity = r'.2.credentialsCapacity)
      (instruction.addCredential (some credential)) (instructionAddCredential inst credential) := by
  rw [← hcapacity] at hfits
  rw [instructionAddCredential_eq, ← hcapacity]
  unfold addCredential
  simp only [GrowableArray.addCopy, bind_assoc]
  refine (h.grow_alike (by decide) (by decide) hfits).bind ?_
  rintro ⟨rc, grown⟩ (_ | capacity) hgrown
  · cases hgrown
    exact alike_pure ⟨rfl, h.elements, hcapacity⟩
  · obtain ⟨hrc, hholds, hroom, hcap⟩ := hgrown
    dsimp only at hrc hholds hroom hcap
    subst hrc
    obtain ⟨opened, hwrite, hfills, hcount, hkept⟩ := hholds.write hroom credentialInit
    simp only [ne_eq, not_true_eq_false, if_false, hwrite, pure_bind, bind_assoc]
    refine (hfills.setFields _).bind ?_
    rintro ⟨rc, copied⟩ ⟨rc', dst⟩ ⟨hrc, hset, -, hsame⟩
    dsimp only at hrc hset hsame ⊢
    subst hrc
    by_cases hrc : rc = 0
    · simp only [hrc, not_true_eq_false, if_false, pure_bind]
      exact alike_pure ⟨rfl, hset.counted.elements, hsame.trans (hkept.trans hcap)⟩
    · obtain ⟨reset, hreset, hempty, -, hkept'⟩ := hset.write hset.room credentialInit
      simp only [hrc, not_false_eq_true, if_true, GrowableArray.release, GrowableArray.read, hset.slot, pure_bind,
        hreset]
      exact alike_pure ⟨rfl, hempty.elements, hkept'.trans (hsame.trans (hkept.trans hcap))⟩

end InstructionArrays

end OpenDbsc
