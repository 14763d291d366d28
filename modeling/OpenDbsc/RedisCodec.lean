/-
What `session_to_json` writes and `session_from_json` reads, when every
allocation succeeds, and what of it is left when some fail.
-/
import OpenDbsc.Redis

namespace OpenDbsc

open Effects Prog

/-! ## With every allocation succeeding -/

@[simp] theorem assuming_addField (fields : JsonFields) (key : CStr) (value : Json) :
    (addField fields key value).assuming allocOk = pure (fields ++ member key value) := by
  simp [addField, cJsonAdd, cJsonAlloc]

/-- The members that are there, in order. -/
def fieldsOf (slots : List (CStr × Option Json)) : JsonFields := slots.filterMap fun f => f.2.map (f.1, ·)

@[simp] theorem assuming_addStringField (fields : JsonFields) (key : CStr) (value : Option CStr) :
    (addStringField fields key value).assuming allocOk = pure (fields ++ fieldsOf [(key, value.map Json.str)]) := by
  cases value with
  | none => simp [addStringField, fieldsOf]
  | some value =>
    rw [addStringField, assuming_addField]
    rfl

/-- A public key as a value: what it parses to, or its text. -/
def publicKeyToJson (L : Extern) (publicKey : CStr) : Json := (L.parse publicKey).getD (.str publicKey)

@[simp] theorem assuming_addPublicKey (L : Extern) (fields : JsonFields) (publicKey : Option CStr) :
    (addPublicKey L fields publicKey).assuming allocOk =
      pure (fields ++ fieldsOf [("public_key", publicKey.map (publicKeyToJson L))]) := by
  cases publicKey with
  | none => simp [addPublicKey, fieldsOf]
  | some publicKey =>
    rw [addPublicKey, assuming_bind, assuming_cJsonParse, pure_bind, Option.map_some, publicKeyToJson]
    cases L.parse publicKey with
    | none =>
      rw [assuming_addField]
      rfl
    | some jwk =>
      rw [assuming_addField]
      rfl

def timeToJson (t : Int) : Json := .num (doubleOfTime t)

@[simp] theorem assuming_addExpiresAt (fields : JsonFields) (s : Session) :
    (addExpiresAt fields s).assuming allocOk =
      pure (fields ++ fieldsOf [("expires_at", if s.hasExpires then some (timeToJson s.expiresAt) else none)]) := by
  unfold addExpiresAt
  cases s.hasExpires with
  | false => simp [fieldsOf]
  | true =>
    rw [if_pos rfl, assuming_addField]
    rfl

/-- What each member of a session's object is. -/
def sessionSlots (L : Extern) (s : Session) : List (CStr × Option Json) :=
  [("id", s.id.map Json.str), ("user_id", s.userId.map Json.str), ("state", some (.str (sessionStateStr s))),
    ("public_key", s.publicKey.map (publicKeyToJson L)), ("algorithm", s.algorithm.map Json.str),
    ("challenge", s.challenge.map Json.str),
    ("expires_at", if s.hasExpires then some (timeToJson s.expiresAt) else none),
    ("created_at", some (timeToJson s.createdAt))]

/-- The object a session is stored as. -/
def sessionFields (L : Extern) (s : Session) : JsonFields := fieldsOf (sessionSlots L s)

theorem fieldsOf_append (xs ys : List (CStr × Option Json)) : fieldsOf (xs ++ ys) = fieldsOf xs ++ fieldsOf ys :=
  List.filterMap_append

@[simp] theorem assuming_sessionToJson (L : Extern) (s : Session) :
    (sessionToJson L s).assuming allocOk = pure (some (L.printUnformatted (.obj (sessionFields L s)))) := by
  unfold sessionToJson
  simp only [cJsonAlloc, assuming_bind, assuming_ite, assuming_libraryAlloc, pure_bind, assuming_pure, if_true,
    assuming_addStringField, assuming_addField, assuming_addPublicKey, assuming_addExpiresAt, List.nil_append]
  have hstate : ∀ key value, member key value = fieldsOf [(key, some value)] := fun _ _ => rfl
  simp only [hstate, ← fieldsOf_append]
  rfl

theorem fieldsOf_cons_none (key : CStr) (slots : List (CStr × Option Json)) :
    fieldsOf ((key, none) :: slots) = fieldsOf slots := rfl

theorem fieldsOf_cons_some (key : CStr) (x : Json) (slots : List (CStr × Option Json)) :
    fieldsOf ((key, some x) :: slots) = (key, x) :: fieldsOf slots := rfl

/-- A name that is no member's is not found. -/
theorem find_fieldsOf_none {slots : List (CStr × Option Json)} {key : CStr} (h : key ∉ slots.map (·.1)) :
    (fieldsOf slots).find? (fun f => f.1 == key) = none := by
  rw [List.find?_eq_none]
  intro f hf heq
  obtain ⟨slot, hslot, hvalue⟩ := List.mem_filterMap.mp hf
  obtain ⟨x, -, rfl⟩ := Option.map_eq_some_iff.mp hvalue
  exact h (eq_of_beq heq ▸ List.mem_map_of_mem hslot)

/-- With distinct names, each member is found under its own. -/
theorem getObjectItem_fieldsOf {slots : List (CStr × Option Json)} (hnames : (slots.map (·.1)).Nodup) {key : CStr}
    {value : Option Json} (h : (key, value) ∈ slots) : (Json.obj (fieldsOf slots)).getObjectItem key = value := by
  unfold Json.getObjectItem
  simp only
  induction slots with
  | nil => exact (List.not_mem_nil h).elim
  | cons slot slots ih =>
    obtain ⟨name, item⟩ := slot
    obtain ⟨hnew, hrest⟩ := List.nodup_cons.mp hnames
    rcases List.mem_cons.mp h with heq | hmem
    · cases heq
      cases value with
      | none => rw [fieldsOf_cons_none, find_fieldsOf_none hnew, Option.map_none]
      | some x => rw [fieldsOf_cons_some, List.find?_cons_of_pos (by simp), Option.map_some]
    · have hne : name ≠ key := by
        intro heq
        subst heq
        exact hnew (List.mem_map.mpr ⟨_, hmem, rfl⟩)
      cases item with
      | none => rw [fieldsOf_cons_none, ih hrest hmem]
      | some x => rw [fieldsOf_cons_some, List.find?_cons_of_neg (by simpa using hne), ih hrest hmem]

/-- The public key an item is read as. -/
def publicKeyOf (L : Extern) (item : Option Json) : Option CStr :=
  match Json.asObject item with
  | some object => some (L.printUnformatted object)
  | none => Json.asString item

/-- The state an item is read as. -/
def stateOf (item : Option Json) : SessionState :=
  if Json.asString item = some ("bound" : CStr) then .bound else .active

/-- The time an item is read as. -/
def timeOf (item : Option Json) : Int :=
  match Json.asNumber item with
  | none => 0
  | some d => timeOfDouble d

/-- The session an object is read as. -/
def sessionOfJson (L : Extern) (obj : Json) : Session where
  id := Json.asString (obj.getObjectItem "id")
  userId := Json.asString (obj.getObjectItem "user_id")
  state := stateOf (obj.getObjectItem "state")
  publicKey := publicKeyOf L (obj.getObjectItem "public_key")
  algorithm := Json.asString (obj.getObjectItem "algorithm")
  challenge := Json.asString (obj.getObjectItem "challenge")
  expiresAt := timeOf (obj.getObjectItem "expires_at")
  hasExpires := timeOf (obj.getObjectItem "expires_at") != 0
  createdAt := timeOf (obj.getObjectItem "created_at")

/-- The session a text is read as. -/
def storedSession (L : Extern) (json : CStr) : Option Session := (L.parse json).map (sessionOfJson L)

/-- A field that is null so far becomes the item's string. -/
theorem assuming_setIfString {set : Session → Option CStr → Prog Sys (Int × Session)}
    {put : Session → Option CStr → Session} (hset : ∀ s v, (set s v).assuming allocOk = pure (0, put s v)) {s : Session}
    (hs : put s none = s) (item : Option Json) :
    (setIfString set s item).assuming allocOk = pure (put s (Json.asString item)) := by
  unfold setIfString
  cases Json.asString item with
  | none => rw [hs, assuming_pure]
  | some v => simp [hset]

theorem assuming_setPublicKeyItem (L : Extern) {s : Session} (hs : { s with publicKey := none } = s)
    (item : Option Json) :
    (setPublicKeyItem L s item).assuming allocOk = pure { s with publicKey := publicKeyOf L item } := by
  unfold setPublicKeyItem publicKeyOf
  cases Json.asObject item with
  | some object => simp [printField]
  | none => exact assuming_setIfString assuming_sessionSetPublicKey hs item

/-- A session is active until the item says otherwise. -/
theorem setStateIfString_of_active {s : Session} (hs : { s with state := .active } = s) (item : Option Json) :
    setStateIfString s item = { s with state := stateOf item } := by
  unfold setStateIfString stateOf
  cases Json.asString item with
  | none => exact hs.symm
  | some state =>
    simp only [sessionSetStateStr, Option.some.injEq]
    by_cases hactive : state = ("active" : CStr)
    · have hne : state ≠ ("bound" : CStr) := by
        rw [hactive]
        decide
      rw [if_pos hactive, if_neg hne]
    · rw [if_neg hactive]
      by_cases hbound : state = ("bound" : CStr)
      · rw [if_pos hbound, if_pos hbound]
      · rw [if_neg hbound, if_neg hbound]
        exact hs.symm

theorem setTimeIfNumber_expiresAt {s : Session} (hs : sessionSetExpiresAt s 0 = s) (item : Option Json) :
    setTimeIfNumber sessionSetExpiresAt s item = sessionSetExpiresAt s (timeOf item) := by
  unfold setTimeIfNumber timeOf
  cases Json.asNumber item with
  | none => exact hs.symm
  | some d => rfl

theorem setTimeIfNumber_createdAt {s : Session} (hs : sessionSetCreatedAt s 0 = s) (item : Option Json) :
    setTimeIfNumber sessionSetCreatedAt s item = sessionSetCreatedAt s (timeOf item) := by
  unfold setTimeIfNumber timeOf
  cases Json.asNumber item with
  | none => exact hs.symm
  | some d => rfl

@[simp] theorem assuming_sessionFromJson (L : Extern) (json : CStr) (s : Session) :
    (sessionFromJson L json s).assuming allocOk =
      pure (match L.parse json with | none => (-1, s) | some obj => (0, sessionOfJson L obj)) := by
  rw [sessionFromJson, assuming_bind, assuming_cJsonParse, pure_bind]
  cases L.parse json with
  | none => rfl
  | some obj =>
    simp only [assuming_bind, assuming_pure, pure_bind, sessionInit, assuming_setIfString assuming_sessionSetId,
      assuming_setIfString assuming_sessionSetUserId, setStateIfString_of_active, assuming_setPublicKeyItem,
      assuming_setIfString assuming_sessionSetAlgorithm, assuming_setIfString assuming_sessionSetChallenge,
      setTimeIfNumber_expiresAt, sessionSetExpiresAt, bne_self_eq_false]
    rw [setTimeIfNumber_createdAt rfl]
    rfl

/-! ## What comes back -/

/-- cJSON reads back what it prints of this session. -/
def ReadsBack (L : Extern) (s : Session) : Prop :=
  L.parse (L.printUnformatted (.obj (sessionFields L s))) = some (.obj (sessionFields L s))

theorem getObjectItem_session (L : Extern) (s : Session) {key : CStr} {value : Option Json}
    (h : (key, value) ∈ sessionSlots L s) : (Json.obj (sessionFields L s)).getObjectItem key = value := by
  have hnames : ((sessionSlots L s).map (·.1)).Nodup := by
    show (["id".toList, "user_id".toList, "state".toList, "public_key".toList, "algorithm".toList, "challenge".toList,
      "expires_at".toList, "created_at".toList] : List CStr).Nodup
    decide
  exact getObjectItem_fieldsOf hnames h

theorem asString_map (value : Option CStr) : Json.asString (value.map Json.str) = value := by
  cases value <;> rfl

/-- A time, stored as a double and read back. -/
def throughDouble (t : Int) : Int := timeOfDouble (doubleOfTime t)

/-- What is read of the object a session is stored as. -/
theorem sessionOfJson_sessionFields (L : Extern) (s : Session) : sessionOfJson L (.obj (sessionFields L s)) =
    { s with
      publicKey := publicKeyOf L (s.publicKey.map (publicKeyToJson L))
      expiresAt := if s.hasExpires then throughDouble s.expiresAt else 0
      hasExpires := s.hasExpires && throughDouble s.expiresAt != 0
      createdAt := throughDouble s.createdAt } := by
  have hslot : ∀ {i : Nat} {key value}, (sessionSlots L s)[i]? = some (key, value) →
      (Json.obj (sessionFields L s)).getObjectItem key = value :=
    fun h => getObjectItem_session L s (List.mem_of_getElem? h)
  have hexpires : timeOf (if s.hasExpires then some (timeToJson s.expiresAt) else none) =
      if s.hasExpires then throughDouble s.expiresAt else 0 := by
    cases s.hasExpires <;> rfl
  have hhas : ((if s.hasExpires then throughDouble s.expiresAt else 0) != 0) =
      (s.hasExpires && throughDouble s.expiresAt != 0) := by
    cases s.hasExpires <;> rfl
  have hstate : stateOf (some (.str (sessionStateStr s))) = s.state := by
    unfold sessionStateStr
    cases s.state <;> decide
  unfold sessionOfJson
  rw [@hslot 0 _ _ rfl, @hslot 1 _ _ rfl, @hslot 2 _ _ rfl, @hslot 3 _ _ rfl, @hslot 4 _ _ rfl, @hslot 5 _ _ rfl,
    @hslot 6 _ _ rfl, @hslot 7 _ _ rfl, hexpires, hhas, hstate, asString_map, asString_map, asString_map, asString_map]
  rfl

end OpenDbsc
