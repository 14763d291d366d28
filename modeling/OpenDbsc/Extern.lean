/-
The libraries opendbsc links against, as parameters: cJSON, OpenSSL and
uuidv7 are functions the model knows nothing about but their types.
Allocation failures inside them are not theirs but `SysOp.library`'s.
-/
import OpenDbsc.Sys

namespace OpenDbsc

/-- A cJSON value. A string is the C string `valuestring` points to, a number
the value of its `valuedouble`. -/
inductive Json where
  | null
  | bool (b : Bool)
  | num (valuedouble : Rat)
  | str (s : CStr)
  | arr (xs : List Json)
  | obj (fields : List (CStr × Json))

namespace Json

/-- `cJSON_GetObjectItemCaseSensitive`: the first member of that name. The
items of an array have no names. -/
def getObjectItem (j : Json) (key : CStr) : Option Json :=
  match j with
  | obj fields => (fields.find? fun f => f.1 == key).map (·.2)
  | _ => none

/-- `cJSON_IsString`, with the string. -/
def asString : Option Json → Option CStr
  | some (str s) => some s
  | _ => none

/-- `cJSON_IsObject`, with the object. -/
def asObject : Option Json → Option Json
  | some (obj fields) => some (obj fields)
  | _ => none

/-- `cJSON_IsNumber`, with the number. -/
def asNumber : Option Json → Option Rat
  | some (num valuedouble) => some valuedouble
  | _ => none

end Json

structure Extern where
  /-- `cJSON_ParseWithLength`. -/
  parseWithLength : List UInt8 → Option Json
  /-- `cJSON_Parse`. -/
  parse : CStr → Option Json
  /-- `cJSON_PrintUnformatted`. -/
  printUnformatted : Json → CStr
  /-- `cJSON_Print`. -/
  print : Json → CStr
  /-- An `EVP_PKEY`. -/
  Key : Type
  /-- `EC_KEY_set_public_key_affine_coordinates` on P-256, of the bytes of `x` and `y`. -/
  ecKey : List UInt8 → List UInt8 → Option Key
  /-- `RSA_set0_key`, of the bytes of `n` and `e`. -/
  rsaKey : List UInt8 → List UInt8 → Option Key
  /-- `i2d_ECDSA_SIG`, of the bytes of R and S; empty when it fails. -/
  ecdsaDer : List UInt8 → List UInt8 → List UInt8
  /-- `EVP_DigestVerify*` with SHA-256: key, message, signature. -/
  digestVerify : Key → List UInt8 → List UInt8 → Bool
  /-- `uuidv7_generate` and `uuidv7_to_string`, of the milliseconds and ten random bytes. -/
  uuidv7 : Nat → List UInt8 → Option CStr

/-! ## Libraries for concrete runs -/

mutual

def Json.render : Json → CStr
  | .null => "null"
  | .bool b => if b then "true" else "false"
  | .num d => percentD d.num ++ (if d.den = 1 then ([] : CStr) else "/" ++ percentD d.den)
  | .str s => "\"" ++ s ++ "\""
  | .arr xs => "[" ++ Json.renderItems xs ++ "]"
  | .obj fields => "\x7b" ++ Json.renderFields fields ++ "\x7d"

def Json.renderItems : List Json → CStr
  | [] => []
  | [x] => x.render
  | x :: xs => x.render ++ "," ++ Json.renderItems xs

def Json.renderFields : List (CStr × Json) → CStr
  | [] => []
  | [(key, x)] => "\"" ++ key ++ "\":" ++ x.render
  | (key, x) :: fields => "\"" ++ key ++ "\":" ++ x.render ++ "," ++ Json.renderFields fields

end

/-- A version 7 UUID: the milliseconds, then the random bytes under its version and variant bits. -/
def uuidv7Text (unixTsMs : Nat) (rand : List UInt8) : Option CStr :=
  match rand with
  | r0 :: r1 :: r2 :: rest =>
    let ms := [5, 4, 3, 2, 1, 0].map fun i => UInt8.ofNat (unixTsMs / 256 ^ i)
    let hex := (ms ++ ((0x70 ||| r0 &&& 0x0f) :: r1 :: (0x80 ||| r2 &&& 0x3f) :: rest)).flatMap percent02x
    some (hex.take 8 ++ "-" ++ (hex.drop 8).take 4 ++ "-" ++ (hex.drop 12).take 4 ++ "-" ++
      (hex.drop 16).take 4 ++ "-" ++ hex.drop 20)
  | _ => none

/-- A cJSON that reads back the values in `known` from what it prints, and an
OpenSSL that builds a key from any two fields, for signatures of zeros only,
and accepts the ones `accepts` does. -/
def Extern.knowing (known : List Json) (accepts : List UInt8 → List UInt8 → Bool) : Extern where
  parseWithLength bytes := known.find? fun j => bytesOf j.render == bytes
  parse s := known.find? fun j => j.render == s
  printUnformatted j := j.render
  print j := j.render
  Key := CStr × List UInt8 × List UInt8
  ecKey x y := some ("EC", x, y)
  rsaKey n e := some ("RSA", n, e)
  ecdsaDer _ _ := [0x30, 6, 2, 1, 0, 2, 1, 0]
  digestVerify _ := accepts
  uuidv7 := uuidv7Text

section

variable (before : List Json) {after : List Json} {j : Json} {accepts : List UInt8 → List UInt8 → Bool}

/-- A value is read back if none before it is printed the same. -/
theorem knowing_parse (h : ∀ i ∈ before, i.render ≠ j.render) :
    (Extern.knowing (before ++ j :: after) accepts).parse j.render = some j := by
  refine List.find?_eq_some_iff_append.mpr ⟨beq_self_eq_true _, before, after, rfl, fun i hi => ?_⟩
  rw [beq_false_of_ne (h i hi)]
  rfl

theorem knowing_parseWithLength (h : ∀ i ∈ before, bytesOf i.render ≠ bytesOf j.render) :
    (Extern.knowing (before ++ j :: after) accepts).parseWithLength (bytesOf j.render) = some j := by
  refine List.find?_eq_some_iff_append.mpr ⟨beq_self_eq_true _, before, after, rfl, fun i hi => ?_⟩
  rw [beq_false_of_ne (h i hi)]
  rfl

end

end OpenDbsc
