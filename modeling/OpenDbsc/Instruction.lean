/-
`protocol/instruction.c`: session instructions and their JSON.

The three converters to JSON fail as soon as one of cJSON's allocations does,
and the JSON built so far is dropped.
-/
import OpenDbsc.Extern

namespace OpenDbsc

open Effects

structure ScopeRule where
  type : Option CStr
  domain : Option CStr
  path : Option CStr

structure SessionScope where
  origin : Option CStr
  includeSite : Bool
  specification : List ScopeRule
  specificationCapacity : Nat

structure SessionCredential where
  type : Option CStr
  name : Option CStr
  attributes : Option CStr

structure SessionInstruction where
  sessionIdentifier : Option CStr
  refreshUrl : Option CStr
  continueSession : Bool
  hasContinue : Bool
  scope : SessionScope
  credentials : List SessionCredential
  credentialsCapacity : Nat
  allowedRefreshInitiators : List CStr
  allowedRefreshInitiatorsCapacity : Nat

def scopeInit : SessionScope := ⟨none, false, [], 0⟩

def credentialInit : SessionCredential := ⟨none, none, none⟩

def instructionInit : SessionInstruction := ⟨none, none, true, false, scopeInit, [], 0, [], 0⟩

/-- `sizeof(OpenDBSC_SessionCredential)` on LP64. -/
def sizeofCredential : Nat := 24

namespace Instruction

/-- `set_string`: the field keeps its value when the copy fails. -/
def setString (field value : Option CStr) : Prog Sys (Int × Option CStr) :=
  match value with
  | none => pure (0, none)
  | some value => do
    match ← strdup value with
    | none => pure (-1, field)
    | some copy => pure (0, some copy)

end Instruction

/-- The new capacity, or `none` when the reallocation fails. -/
def growArray (count capacity elemSize : Nat) : Prog Sys (Option Nat) :=
  if count < capacity then pure (some capacity)
  else do
    let newCapacity := if capacity = 0 then 4 else capacity * 2
    if ← malloc (newCapacity * elemSize) then pure (some newCapacity) else pure none

def instructionSetSessionIdentifier (inst : SessionInstruction) (value : Option CStr) :
    Prog Sys (Int × SessionInstruction) := do
  let (rc, sessionIdentifier) ← Instruction.setString inst.sessionIdentifier value
  pure (rc, { inst with sessionIdentifier })

def instructionSetRefreshUrl (inst : SessionInstruction) (value : Option CStr) :
    Prog Sys (Int × SessionInstruction) := do
  let (rc, refreshUrl) ← Instruction.setString inst.refreshUrl value
  pure (rc, { inst with refreshUrl })

def instructionSetContinue (inst : SessionInstruction) (continueSession : Bool) : SessionInstruction :=
  { inst with continueSession, hasContinue := true }

def scopeSetIncludeSite (scope : SessionScope) (includeSite : Bool) : SessionScope := { scope with includeSite }

def credentialSetType (cred : SessionCredential) (value : Option CStr) : Prog Sys (Int × SessionCredential) := do
  let (rc, type) ← Instruction.setString cred.type value
  pure (rc, { cred with type })

def credentialSetName (cred : SessionCredential) (value : Option CStr) : Prog Sys (Int × SessionCredential) := do
  let (rc, name) ← Instruction.setString cred.name value
  pure (rc, { cred with name })

def credentialSetAttributes (cred : SessionCredential) (value : Option CStr) :
    Prog Sys (Int × SessionCredential) := do
  let (rc, attributes) ← Instruction.setString cred.attributes value
  pure (rc, { cred with attributes })

/-- The grown array stays when the copy into its next slot fails. -/
def instructionAddCredential (inst : SessionInstruction) (cred : SessionCredential) :
    Prog Sys (Int × SessionInstruction) := do
  let some credentialsCapacity ← growArray inst.credentials.length inst.credentialsCapacity sizeofCredential
    | return (-1, inst)
  let inst := { inst with credentialsCapacity }
  let (rc, dst) ← credentialSetType credentialInit cred.type
  if rc ≠ 0 then return (-1, inst)
  let (rc, dst) ← credentialSetName dst cred.name
  if rc ≠ 0 then return (-1, inst)
  let (rc, dst) ← credentialSetAttributes dst cred.attributes
  if rc ≠ 0 then return (-1, inst)
  return (0, { inst with credentials := inst.credentials ++ [dst] })

/-! ## JSON -/

/-- A cJSON value, once it is allocated. -/
def cJsonAlloc {α : Type} (x : α) : Prog Sys (Option α) := do
  if ← libraryAlloc then pure (some x) else pure none

def member (key : CStr) (value : Json) : List (CStr × Json) := [(key, value)]

/-- `cJSON_Add..ToObject`: the object's fields with one more. -/
def cJsonAdd (fields : List (CStr × Json)) (key : CStr) (value : Json) : Prog Sys (Option (List (CStr × Json))) :=
  cJsonAlloc (fields ++ member key value)

/-- `cJSON_AddStringToObject` of each field that is not null, in order. -/
def addStrings (fields : List (CStr × Json)) : List (CStr × Option CStr) → Prog Sys (Option (List (CStr × Json)))
  | [] => pure (some fields)
  | (_, none) :: rest => addStrings fields rest
  | (key, some value) :: rest => do
    let some fields ← cJsonAdd fields key (Json.str value) | return none
    addStrings fields rest

def stringsToJson (strings : List (CStr × Option CStr)) : Prog Sys (Option Json) := do
  let some fields ← cJsonAlloc [] | return none
  let some fields ← addStrings fields strings | return none
  return some (.obj fields)

/-- Each item converted and put into a new array. -/
def itemsToJson {α : Type} (convert : α → Prog Sys (Option Json)) : List α → Prog Sys (Option (List Json))
  | [] => pure (some [])
  | x :: rest => do
    let some item ← convert x | return none
    let some items ← itemsToJson convert rest | return none
    return some (item :: items)

def arrayToJson {α : Type} (convert : α → Prog Sys (Option Json)) (xs : List α) : Prog Sys (Option Json) := do
  let some _ ← cJsonAlloc () | return none
  let some items ← itemsToJson convert xs | return none
  return some (.arr items)

def scopeRuleToJson (rule : ScopeRule) : Prog Sys (Option Json) :=
  stringsToJson [("type", rule.type), ("domain", rule.domain), ("path", rule.path)]

def scopeToJson (scope : SessionScope) : Prog Sys (Option Json) := do
  let some fields ← cJsonAlloc [] | return none
  let some fields ← addStrings fields [("origin", scope.origin)] | return none
  let some fields ← cJsonAdd fields "include_site" (Json.bool scope.includeSite) | return none
  let some spec ← arrayToJson scopeRuleToJson scope.specification | return none
  let some fields ← cJsonAdd fields "scope_specification" spec | return none
  return some (.obj fields)

def credentialToJson (cred : SessionCredential) : Prog Sys (Option Json) :=
  stringsToJson [("type", cred.type), ("name", cred.name), ("attributes", cred.attributes)]

/-- The list is left out when it is empty. -/
def addInitiators (fields : List (CStr × Json)) (origins : List CStr) : Prog Sys (Option (List (CStr × Json))) :=
  if origins.length > 0 then do
    let some initiators ← arrayToJson (fun origin => cJsonAlloc (Json.str origin)) origins | return none
    cJsonAdd fields "allowed_refresh_initiators" initiators
  else pure (some fields)

/-- When continue is false, all other keys are omitted (spec 9.6). -/
def instructionToJson (inst : SessionInstruction) : Prog Sys (Option Json) := do
  let some fields ← cJsonAlloc [] | return none
  if inst.hasContinue && !inst.continueSession then
    let some fields ← cJsonAdd fields "continue" (Json.bool false) | return none
    return some (.obj fields)
  let some fields ← addStrings fields
    [("session_identifier", inst.sessionIdentifier), ("refresh_url", inst.refreshUrl)] | return none
  let some fields ← (if inst.hasContinue then cJsonAdd fields "continue" (Json.bool inst.continueSession)
    else pure (some fields)) | return none
  let some fields ← addInitiators fields inst.allowedRefreshInitiators | return none
  let some scope ← scopeToJson inst.scope | return none
  let some fields ← cJsonAdd fields "scope" scope | return none
  let some creds ← arrayToJson credentialToJson inst.credentials | return none
  let some fields ← cJsonAdd fields "credentials" creds | return none
  return some (.obj fields)

def instructionToString (L : Extern) (inst : SessionInstruction) : Prog Sys (Option CStr) := do
  let some json ← instructionToJson inst | return none
  cJsonAlloc (L.print json)

/-! ## With every allocation succeeding -/

@[simp] theorem Instruction.assuming_setString (field value : Option CStr) :
    (Instruction.setString field value).assuming allocOk = pure (0, value) := by
  cases value with
  | none => rfl
  | some v => simp [Instruction.setString]

@[simp] theorem assuming_growArray (count capacity elemSize : Nat) :
    (growArray count capacity elemSize).assuming allocOk =
      pure (some (if count < capacity then capacity else if capacity = 0 then 4 else capacity * 2)) := by
  unfold growArray
  split
  · rfl
  · simp

@[simp] theorem assuming_cJsonAlloc {α : Type} (x : α) : (cJsonAlloc x).assuming allocOk = pure (some x) := by
  simp [cJsonAlloc]

@[simp] theorem assuming_cJsonAdd (fields : List (CStr × Json)) (key : CStr) (value : Json) :
    (cJsonAdd fields key value).assuming allocOk = pure (some (fields ++ member key value)) :=
  assuming_cJsonAlloc _

/-- The fields that are not null, as JSON strings. -/
def stringFields (strings : List (CStr × Option CStr)) : List (CStr × Json) :=
  strings.filterMap fun f => f.2.map fun value => (f.1, Json.str value)

@[simp] theorem assuming_addStrings (fields : List (CStr × Json)) (strings : List (CStr × Option CStr)) :
    (addStrings fields strings).assuming allocOk = pure (some (fields ++ stringFields strings)) := by
  induction strings generalizing fields with
  | nil => simp [addStrings, stringFields]
  | cons f rest ih =>
    obtain ⟨key, value⟩ := f
    cases value with
    | none => simp [addStrings, ih, stringFields]
    | some value => simp [addStrings, ih, stringFields, member]

@[simp] theorem assuming_stringsToJson (strings : List (CStr × Option CStr)) :
    (stringsToJson strings).assuming allocOk = pure (some (.obj (stringFields strings))) := by
  simp [stringsToJson]

theorem assuming_arrayToJson {α : Type} {convert : α → Prog Sys (Option Json)} {json : α → Json}
    (h : ∀ x, (convert x).assuming allocOk = pure (some (json x))) (xs : List α) :
    (arrayToJson convert xs).assuming allocOk = pure (some (.arr (xs.map json))) := by
  have hitems : (itemsToJson convert xs).assuming allocOk = pure (some (xs.map json)) := by
    induction xs with
    | nil => rfl
    | cons x rest ih => simp [itemsToJson, h, ih]
  simp [arrayToJson, hitems]

def ScopeRule.json (rule : ScopeRule) : Json :=
  .obj (stringFields [("type", rule.type), ("domain", rule.domain), ("path", rule.path)])

def SessionScope.json (scope : SessionScope) : Json :=
  .obj (stringFields [("origin", scope.origin)] ++ member "include_site" (.bool scope.includeSite) ++
    member "scope_specification" (.arr (scope.specification.map ScopeRule.json)))

def SessionCredential.json (cred : SessionCredential) : Json :=
  .obj (stringFields [("type", cred.type), ("name", cred.name), ("attributes", cred.attributes)])

/-- The JSON of an instruction. -/
def SessionInstruction.json (inst : SessionInstruction) : Json :=
  if inst.hasContinue && !inst.continueSession then .obj (member "continue" (.bool false))
  else .obj (stringFields [("session_identifier", inst.sessionIdentifier), ("refresh_url", inst.refreshUrl)] ++
    (if inst.hasContinue then member "continue" (.bool inst.continueSession) else []) ++
    (if inst.allowedRefreshInitiators.length > 0 then
      member "allowed_refresh_initiators" (.arr (inst.allowedRefreshInitiators.map Json.str)) else []) ++
    member "scope" inst.scope.json ++ member "credentials" (.arr (inst.credentials.map SessionCredential.json)))

@[simp] theorem assuming_addInitiators (fields : List (CStr × Json)) (origins : List CStr) :
    (addInitiators fields origins).assuming allocOk = pure (some (fields ++
      if origins.length > 0 then member "allowed_refresh_initiators" (.arr (origins.map Json.str)) else [])) := by
  have horigin : ∀ origin, (cJsonAlloc (Json.str origin)).assuming allocOk = pure (some (Json.str origin)) :=
    fun _ => assuming_cJsonAlloc _
  unfold addInitiators
  by_cases h : origins.length > 0
  · simp only [if_pos h, Prog.assuming_bind, assuming_arrayToJson horigin, pure_bind, assuming_cJsonAdd]
  · simp only [if_neg h, Prog.assuming_pure, List.append_nil]

@[simp] theorem assuming_scopeToJson (scope : SessionScope) :
    (scopeToJson scope).assuming allocOk = pure (some scope.json) := by
  have hrule : ∀ rule, (scopeRuleToJson rule).assuming allocOk = pure (some rule.json) :=
    fun _ => assuming_stringsToJson _
  simp only [scopeToJson, Prog.assuming_bind, assuming_cJsonAlloc, assuming_addStrings, assuming_cJsonAdd,
    assuming_arrayToJson hrule, pure_bind, Prog.assuming_pure, SessionScope.json, List.nil_append, List.append_assoc]

theorem assuming_instructionToJson (inst : SessionInstruction) :
    (instructionToJson inst).assuming allocOk = pure (some inst.json) := by
  have hcred : ∀ cred, (credentialToJson cred).assuming allocOk = pure (some cred.json) :=
    fun _ => assuming_stringsToJson _
  unfold SessionInstruction.json
  simp only [instructionToJson, Prog.assuming_bind, assuming_cJsonAlloc, pure_bind]
  by_cases hstop : (inst.hasContinue && !inst.continueSession) = true
  · simp only [if_pos hstop, Prog.assuming_bind, assuming_cJsonAdd, pure_bind, Prog.assuming_pure, List.nil_append]
  · have hcontinue : ∀ fields, (if inst.hasContinue then cJsonAdd fields "continue" (Json.bool inst.continueSession)
        else pure (some fields)).assuming allocOk = pure (some (fields ++
          if inst.hasContinue then member "continue" (.bool inst.continueSession) else [])) := by
      intro fields
      split <;> simp
    simp only [if_neg hstop, Prog.assuming_bind, assuming_addStrings, hcontinue, assuming_addInitiators,
      assuming_scopeToJson, assuming_cJsonAdd, assuming_arrayToJson hcred, pure_bind, Prog.assuming_pure,
      List.nil_append, List.append_assoc]

@[simp] theorem assuming_instructionToString (L : Extern) (inst : SessionInstruction) :
    (instructionToString L inst).assuming allocOk = pure (some (L.print inst.json)) := by
  simp [instructionToString, assuming_instructionToJson]

end OpenDbsc
