/-
The JSON of an instruction tells what the instruction is.

`Json.Same` is equality as JSON values: the members of an object have names
and no order. Two instructions with the same JSON have the same fields
(`instruction_json_faithful`), but for `continue` set to false, which leaves
nothing else to see.
-/
import Mathlib.Data.List.Forall2
import OpenDbsc.Effects.Needs
import OpenDbsc.Instruction

namespace OpenDbsc

open Effects Prog

/-! ## JSON values -/

/-- Equal as JSON values: arrays item by item, objects member by member, by name. -/
inductive Json.Same : Json → Json → Prop where
  | null : Same .null .null
  | bool (b : Bool) : Same (.bool b) (.bool b)
  | num (x : Rat) : Same (.num x) (.num x)
  | str (s : CStr) : Same (.str s) (.str s)
  | arr {xs ys : List Json} : List.Forall₂ Same xs ys → Same (.arr xs) (.arr ys)
  | obj {fields fields' : List (CStr × Json)} :
      (∀ key, Option.Rel Same (Json.getObjectItem (.obj fields) key) (Json.getObjectItem (.obj fields') key)) →
        Same (.obj fields) (.obj fields')

theorem sizeOf_getObjectItem {fields : List (CStr × Json)} {key : CStr} {value : Json}
    (h : Json.getObjectItem (.obj fields) key = some value) : sizeOf value < 1 + sizeOf fields := by
  obtain ⟨⟨name, value'⟩, hfind, rfl⟩ := Option.map_eq_some_iff.mp h
  have hmem := List.sizeOf_lt_of_mem (List.mem_of_find?_eq_some hfind)
  simp only [Prod.mk.sizeOf_spec] at hmem ⊢
  omega

theorem Json.same_refl (j : Json) : j.Same j :=
  match j with
  | .null => .null
  | .bool b => .bool b
  | .num x => .num x
  | .str s => .str s
  | .arr xs => .arr (List.forall₂_same.mpr fun x hx =>
      have := List.sizeOf_lt_of_mem hx
      Json.same_refl x)
  | .obj fields => .obj fun key =>
      match h : Json.getObjectItem (.obj fields) key with
      | none => .none
      | some value =>
        have := sizeOf_getObjectItem h
        .some (Json.same_refl value)
termination_by sizeOf j

section

variable {j j' : Json}

theorem Json.Same.member (h : j.Same j') (key : CStr) :
    Option.Rel Json.Same (j.getObjectItem key) (j'.getObjectItem key) := by
  cases h with
  | obj h => exact h key
  | _ => exact .none

theorem Json.same_str {s s' : CStr} (h : (Json.str s).Same (.str s')) : s = s' := by
  cases h with
  | str => rfl

theorem Json.same_bool {b b' : Bool} (h : (Json.bool b).Same (.bool b')) : b = b' := by
  cases h with
  | bool => rfl

/-- What every item tells, the array does. -/
theorem Json.same_arr {α : Type} {json : α → Json} (hjson : ∀ x y, (json x).Same (json y) → x = y) {xs ys : List α}
    (h : (Json.arr (xs.map json)).Same (.arr (ys.map json))) : xs = ys := by
  cases h with
  | arr h =>
    rw [List.forall₂_map_left_iff, List.forall₂_map_right_iff] at h
    exact List.forall₂_eq_eq_eq ▸ h.imp hjson

/-- What a member that may be left out tells. -/
theorem Json.same_optional {α : Type} {json : α → Json} (hjson : ∀ x y, (json x).Same (json y) → x = y) {x y : Option α}
    (h : Option.Rel Json.Same (x.map json) (y.map json)) : x = y := by
  cases x with
  | none =>
    cases y with
    | none => rfl
    | some y => cases h
  | some x =>
    cases y with
    | none => cases h
    | some y =>
      cases h with
      | some h => exact congrArg some (hjson x y h)

end

/-! ## Member by member -/

theorem getObjectItem_append (fields fields' : List (CStr × Json)) (key : CStr) :
    Json.getObjectItem (.obj (fields ++ fields')) key =
      (Json.getObjectItem (.obj fields) key).or (Json.getObjectItem (.obj fields') key) := by
  simp [Json.getObjectItem, Option.map_or]

theorem getObjectItem_member (name key : CStr) (value : Json) :
    Json.getObjectItem (.obj (member name value)) key = if name = key then some value else none := by
  by_cases h : name = key <;> simp [Json.getObjectItem, member, h]

theorem getObjectItem_stringFields (name : CStr) (value : Option CStr) (strings : List (CStr × Option CStr))
    (key : CStr) :
    Json.getObjectItem (.obj (stringFields ((name, value) :: strings))) key =
      (if name = key then value.map Json.str else none).or (Json.getObjectItem (.obj (stringFields strings)) key) := by
  cases value with
  | none => simp [stringFields]
  | some value =>
    have happend :
      stringFields ((name, some value) :: strings) = member name (.str value) ++ stringFields strings := rfl
    rw [happend, getObjectItem_append, getObjectItem_member]
    rfl

theorem getObjectItem_noStrings (key : CStr) : Json.getObjectItem (.obj (stringFields [])) key = none := rfl

theorem same_field {x y : Option CStr} (h : Option.Rel Json.Same (x.map Json.str) (y.map Json.str)) : x = y :=
  Json.same_optional (fun _ _ => Json.same_str) h

theorem scopeRule_faithful (a b : ScopeRule) (h : a.json.Same b.json) : a = b := by
  have htype := h.member "type"
  have hdomain := h.member "domain"
  have hpath := h.member "path"
  simp [ScopeRule.json, getObjectItem_stringFields, getObjectItem_noStrings] at htype hdomain hpath
  obtain ⟨type, domain, path⟩ := a
  cases same_field htype
  cases same_field hdomain
  cases same_field hpath
  rfl

theorem credential_faithful (a b : SessionCredential) (h : a.json.Same b.json) : a = b := by
  have htype := h.member "type"
  have hname := h.member "name"
  have hattributes := h.member "attributes"
  simp [SessionCredential.json, getObjectItem_stringFields, getObjectItem_noStrings] at htype hname hattributes
  obtain ⟨type, name, attributes⟩ := a
  cases same_field htype
  cases same_field hname
  cases same_field hattributes
  rfl

theorem scope_faithful {a b : SessionScope} (h : a.json.Same b.json) :
    a.origin = b.origin ∧ a.includeSite = b.includeSite ∧ a.specification = b.specification := by
  have horigin := h.member "origin"
  have hsite := h.member "include_site"
  have hspecification := h.member "scope_specification"
  simp [SessionScope.json, getObjectItem_append, getObjectItem_member, getObjectItem_stringFields,
    getObjectItem_noStrings]
    at horigin hsite hspecification
  exact ⟨same_field horigin, Json.same_bool hsite, Json.same_arr scopeRule_faithful hspecification⟩

/-- An instruction to stop says nothing else. -/
def Stops (inst : SessionInstruction) : Prop := inst.hasContinue = true ∧ inst.continueSession = false

/-- Equal in everything an instruction says. -/
structure SameInstruction (a b : SessionInstruction) : Prop where
  sessionIdentifier : a.sessionIdentifier = b.sessionIdentifier
  refreshUrl : a.refreshUrl = b.refreshUrl
  hasContinue : a.hasContinue = b.hasContinue
  continueSession : a.hasContinue = true → a.continueSession = b.continueSession
  origin : a.scope.origin = b.scope.origin
  includeSite : a.scope.includeSite = b.scope.includeSite
  specification : a.scope.specification = b.scope.specification
  credentials : a.credentials = b.credentials
  allowedRefreshInitiators : a.allowedRefreshInitiators = b.allowedRefreshInitiators

/-- The members of an instruction that does not stop. -/
theorem json_members {inst : SessionInstruction} (h : ¬ Stops inst) :
    inst.json.getObjectItem "session_identifier" = inst.sessionIdentifier.map Json.str ∧
    inst.json.getObjectItem "refresh_url" = inst.refreshUrl.map Json.str ∧
    inst.json.getObjectItem "continue" = (if inst.hasContinue then some inst.continueSession else none).map Json.bool ∧
    inst.json.getObjectItem "allowed_refresh_initiators" =
      (if inst.allowedRefreshInitiators.length > 0 then some inst.allowedRefreshInitiators else none).map
        (fun origins => Json.arr (origins.map Json.str)) ∧
    inst.json.getObjectItem "scope" = some inst.scope.json ∧
    inst.json.getObjectItem "credentials" = some (.arr (inst.credentials.map SessionCredential.json)) := by
  have hgoes : ¬ (inst.hasContinue && !inst.continueSession) = true := by simpa [Stops] using h
  rw [SessionInstruction.json, if_neg hgoes]
  by_cases hcontinue : inst.hasContinue = true <;> by_cases horigins : inst.allowedRefreshInitiators.length > 0 <;>
    simp [hcontinue, horigins, getObjectItem_append, getObjectItem_member, getObjectItem_stringFields,
      getObjectItem_noStrings]

theorem eq_of_present {α : Type} {p q : Bool} {x y : α}
    (h : (if p then some x else none) = if q then some y else none) :
    p = q ∧ (p = true → x = y) := by
  cases p <;> cases q <;> simp_all

/-- A list that is left out when it is empty. -/
theorem eq_of_nonempty {α : Type} {xs ys : List α}
    (h : (if xs.length > 0 then some xs else none) = if ys.length > 0 then some ys else none) : xs = ys := by
  cases xs <;> cases ys <;> simp_all

theorem instruction_faithful {a b : SessionInstruction} (ha : ¬ Stops a) (hb : ¬ Stops b) (h : a.json.Same b.json) :
    SameInstruction a b := by
  obtain ⟨ha₁, ha₂, ha₃, ha₄, ha₅, ha₆⟩ := json_members ha
  obtain ⟨hb₁, hb₂, hb₃, hb₄, hb₅, hb₆⟩ := json_members hb
  have hid := h.member "session_identifier"
  have hurl := h.member "refresh_url"
  have hcontinue := h.member "continue"
  have hinitiators := h.member "allowed_refresh_initiators"
  have hscope := h.member "scope"
  have hcredentials := h.member "credentials"
  rw [ha₁, hb₁] at hid
  rw [ha₂, hb₂] at hurl
  rw [ha₃, hb₃] at hcontinue
  rw [ha₄, hb₄] at hinitiators
  rw [ha₅, hb₅, Option.rel_some_some] at hscope
  rw [ha₆, hb₆, Option.rel_some_some] at hcredentials
  obtain ⟨hpresent, hvalue⟩ := eq_of_present (Json.same_optional (fun _ _ => Json.same_bool) hcontinue)
  have horigins := eq_of_nonempty (Json.same_optional (fun _ _ => Json.same_arr fun _ _ => Json.same_str) hinitiators)
  obtain ⟨horigin, hsite, hspecification⟩ := scope_faithful hscope
  exact {
    sessionIdentifier := same_field hid
    refreshUrl := same_field hurl
    hasContinue := hpresent
    continueSession := hvalue
    origin := horigin
    includeSite := hsite
    specification := hspecification
    credentials := Json.same_arr credential_faithful hcredentials
    allowedRefreshInitiators := horigins }

/-! ## What the converters return -/

theorem tries_cJsonAlloc {α : Type} (x : α) : Tries (cJsonAlloc x) x := tries_perform (S := Sys) SysOp.library id x

theorem tries_addStrings (fields : List (CStr × Json)) (strings : List (CStr × Option CStr)) :
    Tries (addStrings fields strings) (fields ++ stringFields strings) := by
  induction strings generalizing fields with
  | nil =>
    rw [stringFields, List.filterMap_nil, List.append_nil]
    exact tries_pure fields
  | cons field strings ih =>
    obtain ⟨key, value⟩ := field
    cases value with
    | none => exact ih fields
    | some value =>
      have hfields : fields ++ stringFields ((key, some value) :: strings) =
          fields ++ member key (.str value) ++ stringFields strings := by simp [stringFields, member]
      rw [hfields]
      exact (tries_cJsonAlloc _).bind (ih _) rfl

theorem tries_stringsToJson (strings : List (CStr × Option CStr)) :
    Tries (stringsToJson strings) (.obj (stringFields strings)) :=
  (tries_cJsonAlloc []).bind ((tries_addStrings [] strings).bind (tries_pure _) rfl) rfl

theorem tries_arrayToJson {α : Type} {convert : α → Prog Sys (Option Json)} {json : α → Json}
    (h : ∀ x, Tries (convert x) (json x)) (xs : List α) : Tries (arrayToJson convert xs) (.arr (xs.map json)) := by
  have hitems : Tries (itemsToJson convert xs) (xs.map json) := by
    induction xs with
    | nil => exact tries_pure []
    | cons x xs ih => exact (h x).bind (ih.bind (tries_pure _) rfl) rfl
  exact (tries_cJsonAlloc ()).bind (hitems.bind (tries_pure _) rfl) rfl

theorem tries_addInitiators (fields : List (CStr × Json)) (origins : List CStr) :
    Tries (addInitiators fields origins) (fields ++
      if origins.length > 0 then member "allowed_refresh_initiators" (.arr (origins.map Json.str)) else []) := by
  unfold addInitiators
  split
  · exact (tries_arrayToJson (fun origin => tries_cJsonAlloc (Json.str origin)) origins).bind (tries_cJsonAlloc _) rfl
  · rw [List.append_nil]
    exact tries_pure fields

theorem tries_scopeToJson (scope : SessionScope) : Tries (scopeToJson scope) scope.json := by
  refine (tries_cJsonAlloc []).bind ((tries_addStrings [] _).bind ((tries_cJsonAlloc _).bind ?_ rfl) rfl) rfl
  refine (tries_arrayToJson (fun rule => tries_stringsToJson _) scope.specification).bind ?_ rfl
  exact (tries_cJsonAlloc _).bind (tries_pure _) rfl

/-- Whatever the allocations do, what comes back is the instruction's JSON or nothing. -/
theorem tries_instructionToJson (inst : SessionInstruction) : Tries (instructionToJson inst) inst.json := by
  unfold SessionInstruction.json
  refine (tries_cJsonAlloc []).bind ?_ rfl
  by_cases hstop : (inst.hasContinue && !inst.continueSession) = true
  · simp only [if_pos hstop]
    exact (tries_cJsonAlloc _).bind (tries_pure _) rfl
  · simp only [if_neg hstop]
    have hcontinue :
      ∀ fields, Tries (if inst.hasContinue then cJsonAdd fields "continue" (Json.bool inst.continueSession)
        else pure (some fields))
        (fields ++ if inst.hasContinue then member "continue" (.bool inst.continueSession) else []) := by
      intro fields
      split
      · exact tries_cJsonAlloc _
      · rw [List.append_nil]
        exact tries_pure fields
    refine (tries_addStrings [] _).bind ((hcontinue _).bind ((tries_addInitiators _ _).bind ?_ rfl) rfl) rfl
    refine (tries_scopeToJson inst.scope).bind ((tries_cJsonAlloc _).bind ?_ rfl) rfl
    refine (tries_arrayToJson (fun cred => tries_stringsToJson _) inst.credentials).bind ?_ rfl
    exact (tries_cJsonAlloc _).bind (tries_pure _) rfl

/-- **The JSON of an instruction loses nothing.** Two instructions that come
back as the same JSON value are the same, if neither stops, whatever the
allocations did. One that stops is the object that says so. -/
theorem instruction_json_faithful :
    (∀ a b tr tr' j j', Trace (instructionToJson a) tr (some j) → Trace (instructionToJson b) tr' (some j') →
      ¬ Stops a → ¬ Stops b → j.Same j' → SameInstruction a b) ∧
    ∀ a, Stops a → (instructionToJson a).assuming allocOk = pure (some (.obj [("continue", .bool false)])) ∧
      ∀ tr j, Trace (instructionToJson a) tr (some j) → j = .obj [("continue", .bool false)] := by
  have hjson : ∀ {inst tr j}, Trace (instructionToJson inst) tr (some j) → j = inst.json := fun {inst tr j} h =>
    Option.some.inj ((tries_instructionToJson inst tr _ h).resolve_right (Option.some_ne_none j))
  refine ⟨fun a b tr tr' j j' ha hb => ?_, fun a hstop => ?_⟩
  · rw [hjson ha, hjson hb]
    exact instruction_faithful
  · have hstops : a.json = .obj [("continue", .bool false)] := by
      rw [SessionInstruction.json, if_pos (by simp [hstop.1, hstop.2])]
      rfl
    exact ⟨hstops ▸ assuming_instructionToJson a, fun tr j h => hstops ▸ hjson h⟩

/-- An instruction with all there can be in it. -/
def fullInstruction : SessionInstruction where
  sessionIdentifier := some "a"
  refreshUrl := some "/dbsc/refresh"
  continueSession := true
  hasContinue := true
  scope := {
    origin := some "https://a.example"
    includeSite := true
    specification := [⟨some "exclude", some "a.example", some "/static"⟩, ⟨some "include", none, some "/"⟩]
    specificationCapacity := 4 }
  credentials := [⟨some "cookie", some "auth", some "Path=/"⟩, ⟨some "cookie", some "user", none⟩]
  credentialsCapacity := 4
  allowedRefreshInitiators := ["https://a.example", "https://b.example"]
  allowedRefreshInitiatorsCapacity := 4

/-- Two such instructions, of which one was added to more often, and the same one told to stop. -/
theorem instruction_json_faithful_full :
    SameInstruction fullInstruction
        { fullInstruction with credentialsCapacity := 8, allowedRefreshInitiatorsCapacity := 8 } ∧
      (instructionToJson (instructionSetContinue fullInstruction false)).assuming allocOk =
        pure (some (.obj [("continue", .bool false)])) := by
  have hrun : ∀ inst : SessionInstruction, ∃ tr, Trace (instructionToJson inst) tr (some inst.json) := by
    intro inst
    obtain ⟨tr, h, -⟩ := Trace.of_assuming (assuming_instructionToJson inst ▸ Trace.ret :
      Trace ((instructionToJson inst).assuming allocOk) [] (some inst.json))
    exact ⟨tr, h⟩
  obtain ⟨tr, h⟩ := hrun fullInstruction
  obtain ⟨tr', h'⟩ := hrun { fullInstruction with credentialsCapacity := 8, allowedRefreshInitiatorsCapacity := 8 }
  refine ⟨instruction_json_faithful.1 _ _ tr tr' _ _ h h' ?_ ?_ (Json.same_refl _), ?_⟩
  · simp [Stops, fullInstruction]
  · simp [Stops, fullInstruction]
  · exact (instruction_json_faithful.2 _ ⟨rfl, rfl⟩).1

end OpenDbsc
