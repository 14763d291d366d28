/-
A session as JSON and back.

Every field comes back but the public key, which is stored as whatever value
its text begins with: `cJSON_Parse` stops at the end of that value, and the
decoder takes an object or a string only. So a session comes back exactly if
its key does not parse, or is a JSON object and nothing more (`roundTrip_iff`).
-/
import OpenDbsc.RedisSpec

namespace OpenDbsc

open Effects Prog

/-- `session_to_json`, then `session_from_json` of the text. -/
def roundTrip (L : Extern) (s : Session) : Prog Sys (Int × Session) := do
  let some json ← sessionToJson L s | return (-1, sessionInit)
  sessionFromJson L json sessionInit

/-! ## Times -/

theorem roundHalfEven_dvd {n d : Int} (hd : 0 < d) (h : d ∣ n) : roundHalfEven n d * d = n := by
  have hmod : n % d = 0 := Int.emod_eq_zero_of_dvd h
  unfold roundHalfEven
  rw [if_pos (.inl (by omega)), Int.ediv_mul_cancel h]

/-- Up to 2^53 every integer is a double. -/
theorem doubleOfTime_eq {t : Int} (h : t.natAbs ≤ 2 ^ 53) : doubleOfTime t = (t : Rat) := by
  have hunit : ((2 : Int) ^ (t.natAbs.log2 - 52)) ∣ t := by
    by_cases hlt : t.natAbs < 2 ^ 53
    · have hlog : t.natAbs.log2 - 52 = 0 := by
        by_cases hzero : t.natAbs = 0
        · rw [hzero]
          decide
        · have hlog := (Nat.log2_lt hzero).mpr hlt
          omega
      rw [hlog]
      exact Int.one_dvd t
    · have hmax : t.natAbs = 2 ^ 53 := Nat.le_antisymm h (Nat.le_of_not_lt hlt)
      have hlog : t.natAbs.log2 - 52 = 1 := by
        rw [hmax]
        decide
      rw [hlog]
      omega
  unfold doubleOfTime
  simp only [roundHalfEven_dvd (Int.pow_pos (by decide)) hunit]

theorem throughDouble_eq {t : Int} (h : t.natAbs ≤ 2 ^ 53) : throughDouble t = t := by
  have hone : t.tdiv ((1 : Nat) : Int) = t := Int.tdiv_one t
  unfold throughDouble timeOfDouble
  rw [doubleOfTime_eq h, Rat.num_intCast, Rat.den_intCast]
  simp only [hone]
  rw [if_pos (by omega)]

/-! ## The public key -/

/-- What cJSON takes for blank. -/
def Blank (text : CStr) : Prop := ∀ c ∈ text, c.toNat ≤ 32

/-- The text is a JSON object, with nothing behind it but blanks. -/
def CompleteObject (L : Extern) (text : CStr) : Prop :=
  (∃ fields, L.parse text = some (.obj fields)) ∧
    ∀ part rest, text = part ++ rest → (L.parse part).isSome = true → Blank rest

/-- The same string, or the same JSON value where the text is an object. -/
def SamePublicKey (L : Extern) (key key' : Option CStr) : Prop :=
  key' = key ∨ ∃ text text', key = some text ∧ key' = some text' ∧ CompleteObject L text ∧ L.parse text' = L.parse text

/-- The session that comes back is the one that was stored. -/
structure Same (L : Extern) (s s' : Session) : Prop where
  id : s'.id = s.id
  userId : s'.userId = s.userId
  state : s'.state = s.state
  publicKey : SamePublicKey L s.publicKey s'.publicKey
  algorithm : s'.algorithm = s.algorithm
  challenge : s'.challenge = s.challenge
  expiresAt : s'.expiresAt = s.expiresAt
  hasExpires : s'.hasExpires = s.hasExpires
  createdAt : s'.createdAt = s.createdAt

/-- What cJSON does with the texts of this session: it reads back the object
it prints of it; it prints the object a key is read as as a complete one, and
reads that back; and a string is not its own JSON text. -/
structure CJson (L : Extern) (s : Session) : Prop where
  session : ReadsBack L s
  object : ∀ {text fields}, s.publicKey = some text → L.parse text = some (.obj fields) →
    L.parse (L.printUnformatted (.obj fields)) = some (.obj fields) ∧
      CompleteObject L (L.printUnformatted (.obj fields))
  string : ∀ {text t}, s.publicKey = some text → L.parse text = some (.str t) → t ≠ text

/-- The key does not parse, or is an object and nothing more. -/
def KeyIsPlain (L : Extern) (key : Option CStr) : Prop :=
  ∀ text, key = some text → L.parse text = none ∨ CompleteObject L text

/-- The public key as it comes back. -/
def recodedKey (L : Extern) (key : Option CStr) : Option CStr := publicKeyOf L (key.map (publicKeyToJson L))

theorem samePublicKey_iff {L : Extern} {s : Session} (hcjson : CJson L s) :
    SamePublicKey L s.publicKey (recodedKey L s.publicKey) ↔ KeyIsPlain L s.publicKey := by
  unfold recodedKey
  cases hkey : s.publicKey with
  | none =>
    have hplain : KeyIsPlain L none := fun _ h => nomatch h
    exact ⟨fun _ => hplain, fun _ => .inl rfl⟩
  | some text =>
    rw [Option.map_some, publicKeyToJson]
    constructor
    · intro hsame text' htext
      cases htext
      cases hparse : L.parse text with
      | none => exact .inl rfl
      | some j =>
        refine .inr ?_
        rw [hparse, Option.getD_some] at hsame
        rcases hsame with heq | ⟨_, _, htext, -, hcomplete, -⟩
        · cases j with
          | obj fields =>
            have hprint : L.printUnformatted (.obj fields) = text := Option.some.inj heq
            exact hprint ▸ (hcjson.object hkey hparse).2
          | str t => exact absurd (Option.some.inj heq) (hcjson.string hkey hparse)
          | null => cases heq
          | bool b => cases heq
          | num d => cases heq
          | arr xs => cases heq
        · cases htext
          exact hcomplete
    · intro hplain
      rcases hplain text rfl with hnone | hcomplete
      · rw [hnone]
        exact .inl rfl
      · obtain ⟨fields, hparse⟩ := hcomplete.1
        rw [hparse, Option.getD_some]
        refine .inr ⟨text, _, rfl, rfl, hcomplete, ?_⟩
        rw [hparse]
        exact (hcjson.object hkey hparse).1

/-! ## The session -/

theorem returns_roundTrip {L : Extern} {s : Session} (hjson : ReadsBack L s) {Q : Int × Session → Prop} :
    Returns AllocsSucceed (roundTrip L s) Q ↔ Q (0, sessionOfJson L (.obj (sessionFields L s))) := by
  have halloc : ∀ (o : Sys.Op) (x y : Sys.Ans o), allocOk o = some x → (AllocsSucceed ⟨o, y⟩ ↔ y = x) := by
    intro o x y hx
    constructor
    · exact fun h => h x hx
    · rintro rfl z hz
      exact Option.some.inj (hx.symm.trans hz)
  rw [← returns_assuming halloc, roundTrip]
  simp only [assuming_bind, assuming_sessionToJson, pure_bind, assuming_sessionFromJson]
  rw [hjson]
  exact Iff.rfl

/-- **What comes back of a session.** When no allocation fails, storing a
session as JSON and reading it succeeds with the same session exactly if its
public key is null, does not parse, or is a JSON object and nothing more. -/
theorem roundTrip_iff {L : Extern} {s : Session} (hcjson : CJson L s) (hexpires : s.hasExpires = (s.expiresAt != 0))
    (hexpiresAt : s.expiresAt.natAbs ≤ 2 ^ 53) (hcreatedAt : s.createdAt.natAbs ≤ 2 ^ 53) :
    Returns AllocsSucceed (roundTrip L s) (fun r => r.1 = 0 ∧ Same L s r.2) ↔ KeyIsPlain L s.publicKey := by
  rw [returns_roundTrip hcjson.session, sessionOfJson_sessionFields, throughDouble_eq hexpiresAt,
    throughDouble_eq hcreatedAt, ← samePublicKey_iff hcjson]
  constructor
  · exact fun h => h.2.publicKey
  · intro hkey
    refine ⟨rfl, rfl, rfl, rfl, hkey, rfl, rfl, ?_, ?_, rfl⟩
    · show (if s.hasExpires then s.expiresAt else 0) = s.expiresAt
      rw [hexpires]
      split
      · rfl
      · rename_i hzero
        have hexp : s.expiresAt = 0 := by simpa using hzero
        exact hexp.symm
    · show (s.hasExpires && s.expiresAt != 0) = s.hasExpires
      rw [hexpires, Bool.and_self]

/-- A key that is an object comes back as that object. -/
theorem roundTrip_object : ∃ L s, s.id = some ("a" : CStr) ∧ s.publicKey = some (Json.obj [("kty", .str "EC")]).render ∧
    Returns AllocsSucceed (roundTrip L s) (fun r => r.1 = 0 ∧ Same L s r.2) := by
  let key : Json := .obj [("kty", .str "EC")]
  let s : Session := { sessionInit with id := some "a".toList, publicKey := some key.render }
  let stored : JsonFields :=
    [("id", .str "a"), ("state", .str "active"), ("public_key", key), ("created_at", timeToJson 0)]
  let L := Extern.knowing [key, .obj stored] fun _ _ => false
  have hparse : L.parse key.render = some key := knowing_parse [] fun _ h => (List.not_mem_nil h).elim
  have hfields : sessionFields L s = stored := by
    show fieldsOf [("id", some (.str "a")), ("user_id", none), ("state", some (.str "active")),
      ("public_key", some ((L.parse key.render).getD (.str key.render))), ("algorithm", none), ("challenge", none),
      ("expires_at", none), ("created_at", some (timeToJson 0))] = stored
    rw [hparse]
    rfl
  have hback : ReadsBack L s := by
    unfold ReadsBack
    rw [hfields]
    refine knowing_parse [key] fun j hj => ?_
    rw [List.mem_singleton.mp hj]
    decide +kernel
  have hlong : key.render.length < (Json.obj stored).render.length := by decide +kernel
  have hcomplete : CompleteObject L key.render := by
    refine ⟨⟨_, hparse⟩, fun part rest hsplit hsome => ?_⟩
    obtain ⟨j, hj⟩ := Option.isSome_iff_exists.mp hsome
    have hj : [key, .obj stored].find? (fun j => j.render == part) = some j := hj
    have hrender : j.render = part := by simpa using List.find?_some hj
    have hlength := congrArg List.length hsplit
    rw [List.length_append, ← hrender] at hlength
    have hmem : j ∈ [key, .obj stored] := List.mem_of_find?_eq_some hj
    rcases List.mem_pair.mp hmem with rfl | rfl
    · rw [List.eq_nil_of_length_eq_zero (by omega : rest.length = 0)]
      exact fun c hc => (List.not_mem_nil hc).elim
    · omega
  have hcjson : CJson L s := by
    refine ⟨hback, fun htext h => ?_, fun htext h => ?_⟩ <;> cases htext
    · have hobj : Json.obj _ = key := Option.some.inj (h.symm.trans hparse)
      rw [hobj]
      exact ⟨hparse, hcomplete⟩
    · have hobj : Json.str _ = Json.obj _ := Option.some.inj (h.symm.trans hparse)
      cases hobj
  refine ⟨L, s, rfl, rfl, (roundTrip_iff hcjson rfl (by decide) (by decide)).mpr fun text htext => ?_⟩
  cases htext
  exact .inr hcomplete

/-- A key that reads as a number is lost. -/
theorem roundTrip_loses_number : ∃ L s, s.id = some ("a" : CStr) ∧ s.publicKey = some ("1" : CStr) ∧ CJson L s ∧
    s.hasExpires = (s.expiresAt != 0) ∧ s.expiresAt.natAbs ≤ 2 ^ 53 ∧ s.createdAt.natAbs ≤ 2 ^ 53 ∧
    Returns AllocsSucceed (roundTrip L s) (fun r => r.1 = 0 ∧ r.2.publicKey = none) ∧
    ¬ Returns AllocsSucceed (roundTrip L s) (fun r => r.1 = 0 ∧ Same L s r.2) := by
  let s : Session := { sessionInit with id := some "a".toList, publicKey := some "1".toList }
  let stored : JsonFields :=
    [("id", .str "a"), ("state", .str "active"), ("public_key", .num 1), ("created_at", timeToJson 0)]
  let L := Extern.knowing [.num 1, .obj stored] fun _ _ => false
  have hparse : L.parse "1" = some (.num 1) := knowing_parse [] fun _ h => (List.not_mem_nil h).elim
  have hfields : sessionFields L s = stored := by
    show fieldsOf [("id", some (.str "a")), ("user_id", none), ("state", some (.str "active")),
      ("public_key", some ((L.parse "1").getD (.str "1"))), ("algorithm", none), ("challenge", none),
        ("expires_at", none),
      ("created_at", some (timeToJson 0))] = stored
    rw [hparse]
    rfl
  have hback : ReadsBack L s := by
    unfold ReadsBack
    rw [hfields]
    refine knowing_parse [.num 1] fun j hj => ?_
    rw [List.mem_singleton.mp hj]
    decide +kernel
  have hcjson : CJson L s := by
    refine ⟨hback, fun htext h => ?_, fun htext h => ?_⟩ <;> cases htext <;> cases hparse.symm.trans h
  have hkey : recodedKey L s.publicKey = none := by
    show publicKeyOf L (some ((L.parse "1").getD (.str "1"))) = none
    rw [hparse]
    rfl
  refine ⟨L, s, rfl, rfl, hcjson, rfl, by decide, by decide, ?_, ?_⟩
  · rw [returns_roundTrip hback, sessionOfJson_sessionFields]
    exact ⟨rfl, hkey⟩
  · rw [returns_roundTrip hback, sessionOfJson_sessionFields]
    rintro ⟨-, hsame⟩
    have hplain := (samePublicKey_iff hcjson).mp hsame.publicKey "1" rfl
    rcases hplain with hnone | ⟨⟨fields, hobj⟩, -⟩
    · cases hparse.symm.trans hnone
    · cases hparse.symm.trans hobj

end OpenDbsc
