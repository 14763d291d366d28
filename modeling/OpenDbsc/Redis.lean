/-
`store/redis.c`: a session is a JSON text under its key, and each user has a
set of session ids.

A call is a program over the runtime and the Redis server, which sees one
command at a time. `redis_get` and `redis_delete` call each other; `frames`
bounds the calls of `redis_get` on the stack at once, and one more has no
behaviour. Creating and destroying the store is left out.
-/
import OpenDbsc.Instruction
import OpenDbsc.Jwt
import OpenDbsc.Store

namespace OpenDbsc

open Effects Prog

/-! ## The server's interface -/

/-- A `redisReply`; the strings are the C strings at `str`. -/
inductive RedisReply where
  | nil
  | error
  | status
  | integer
  | string (str : CStr)
  | array (elements : List RedisReply)

inductive RedisOp where
  /-- `SET key value`, with `EX` seconds. -/
  | set (key value : CStr) (ex : Option Int)
  | get (key : CStr)
  | del (key : CStr)
  | sadd (key member : CStr)
  | srem (key member : CStr)
  | smembers (key : CStr)

/-- There is no reply when the connection is lost. -/
abbrev RedisSig : Sig := ⟨RedisOp, fun _ => Option RedisReply⟩

abbrev RedisProg := Prog (Sys.sum RedisSig)

def redisCommand (o : RedisOp) : RedisProg (Option RedisReply) := call (T := RedisSig) o

/-- `reply == NULL || reply->type == REDIS_REPLY_ERROR`. -/
def redisFailed : Option RedisReply → Bool
  | none => true
  | some .error => true
  | some _ => false

def sessionKey (keyPrefix id : CStr) : CStr := keyPrefix ++ ":session:" ++ id

def userKey (keyPrefix : CStr) (userId : Option CStr) : CStr := keyPrefix ++ ":user:" ++ percentS userId

/-- A key in a buffer of its length. -/
def redisKey (key : CStr) : Prog Sys (Option CStr) := do
  if ← malloc (key.length + 1) then pure (some key) else pure none

def redisSessionKey (keyPrefix id : CStr) : Prog Sys (Option CStr) := redisKey (sessionKey keyPrefix id)

def redisUserKey (keyPrefix : CStr) (userId : Option CStr) : Prog Sys (Option CStr) :=
  redisKey (userKey keyPrefix userId)

/-! ## A session as JSON -/

/-- `n / d`, rounded to the nearest integer, to the even one of two. -/
def roundHalfEven (n d : Int) : Int :=
  if 2 * (n % d) < d ∨ 2 * (n % d) = d ∧ n / d % 2 = 0 then n / d else n / d + 1

/-- `(double)n`: the nearest number with 53 bits. -/
def doubleOfTime (n : Int) : Rat :=
  let unit : Int := 2 ^ (n.natAbs.log2 - 52)
  ((roundHalfEven n unit * unit : Int) : Rat)

/-- `(time_t)d`; out of range, what x86-64 makes of it. -/
def timeOfDouble (d : Rat) : Int :=
  let n := Int.tdiv d.num d.den
  if -2 ^ 63 ≤ n ∧ n < 2 ^ 63 then n else -2 ^ 63

abbrev JsonFields := List (CStr × Json)

/-- The result of `cJSON_Add..ToObject` is not looked at: on a failure the field is missing. -/
def addField (fields : JsonFields) (key : CStr) (value : Json) : Prog Sys JsonFields := do
  match ← cJsonAdd fields key value with
  | none => pure fields
  | some fields => pure fields

def addStringField (fields : JsonFields) (key : CStr) (value : Option CStr) : Prog Sys JsonFields :=
  match value with
  | none => pure fields
  | some value => addField fields key (.str value)

/-- A key that does not parse is stored as a string. -/
def addPublicKey (L : Extern) (fields : JsonFields) (publicKey : Option CStr) : Prog Sys JsonFields :=
  match publicKey with
  | none => pure fields
  | some publicKey => do
    match ← cJsonParse L publicKey with
    | some jwk => addField fields "public_key" jwk
    | none => addField fields "public_key" (.str publicKey)

def addExpiresAt (fields : JsonFields) (session : Session) : Prog Sys JsonFields :=
  if session.hasExpires then addField fields "expires_at" (.num (doubleOfTime session.expiresAt)) else pure fields

def sessionToJson (L : Extern) (session : Session) : Prog Sys (Option CStr) := do
  let some fields ← cJsonAlloc [] | return none
  let fields ← addStringField fields "id" session.id
  let fields ← addStringField fields "user_id" session.userId
  let fields ← addField fields "state" (.str (sessionStateStr session))
  let fields ← addPublicKey L fields session.publicKey
  let fields ← addStringField fields "algorithm" session.algorithm
  let fields ← addStringField fields "challenge" session.challenge
  let fields ← addExpiresAt fields session
  let fields ← addField fields "created_at" (.num (doubleOfTime session.createdAt))
  cJsonAlloc (L.printUnformatted (.obj fields))

/-- A setter, called when the item is a string; its result is not looked at. -/
def setIfString (set : Session → Option CStr → Prog Sys (Int × Session)) (session : Session) (item : Option Json) :
    Prog Sys Session :=
  match Json.asString item with
  | none => pure session
  | some value => do
    let (_, session) ← set session (some value)
    pure session

def setStateIfString (session : Session) (item : Option Json) : Session :=
  match Json.asString item with
  | none => session
  | some value => (sessionSetStateStr session value).2

def setTimeIfNumber (set : Session → Int → Session) (session : Session) (item : Option Json) : Session :=
  match Json.asNumber item with
  | none => session
  | some d => set session (timeOfDouble d)

/-- An object is printed again; null when that fails. -/
def setPublicKeyItem (L : Extern) (session : Session) (item : Option Json) : Prog Sys Session :=
  match Json.asObject item with
  | some object => do
    let jwk ← printField L (some object)
    let (_, session) ← sessionSetPublicKey session jwk
    pure session
  | none => setIfString sessionSetPublicKey session item

def sessionFromJson (L : Extern) (json : CStr) (session : Session) : Prog Sys (Int × Session) := do
  let some obj ← cJsonParse L json | return (-1, session)
  let session ← setIfString sessionSetId sessionInit (obj.getObjectItem "id")
  let session ← setIfString sessionSetUserId session (obj.getObjectItem "user_id")
  let session := setStateIfString session (obj.getObjectItem "state")
  let session ← setPublicKeyItem L session (obj.getObjectItem "public_key")
  let session ← setIfString sessionSetAlgorithm session (obj.getObjectItem "algorithm")
  let session ← setIfString sessionSetChallenge session (obj.getObjectItem "challenge")
  let session := setTimeIfNumber sessionSetExpiresAt session (obj.getObjectItem "expires_at")
  let session := setTimeIfNumber sessionSetCreatedAt session (obj.getObjectItem "created_at")
  return (0, session)

/-! ## The store's functions -/

def isExpired (session : Session) : Prog Sys Bool :=
  if !session.hasExpires then pure false
  else do
    let now ← time
    pure (decide (now > session.expiresAt))

/-- The `EX` seconds of a session's key, at least one. -/
def redisTtl (session : Session) : Prog Sys (Option Int) :=
  if session.hasExpires then do
    let now ← time
    let ttl := session.expiresAt - now
    pure (some (if ttl ≤ 0 then 1 else ttl))
  else pure none

/-- The two commands of `redis_create`. -/
def redisWrite (skey ukey id json : CStr) (ex : Option Int) : RedisProg Int := do
  if redisFailed (← redisCommand (.set skey json ex)) then return -1
  if redisFailed (← redisCommand (.sadd ukey id)) then return -1
  return 0

def redisCreate (L : Extern) (keyPrefix : CStr) (session : Session) : RedisProg Int :=
  match session.id with
  | none => pure (-1)
  | some id => do
    let some json ← (sessionToJson L session).lift | return -1
    let skey ← (redisSessionKey keyPrefix id).lift
    let ukey ← (redisUserKey keyPrefix session.userId).lift
    let some skey := skey | return -1
    let some ukey := ukey | return -1
    let ex ← (redisTtl session).lift
    redisWrite skey ukey id json ex

/-- The key of the user's set, when there is a session to take it from. -/
def userKeyOf (keyPrefix : CStr) (session : Option Session) : Prog Sys (Option CStr) :=
  match session with
  | none => pure none
  | some session => redisUserKey keyPrefix session.userId

/-- The commands of `redis_delete`. -/
def redisRemove (keyPrefix id : CStr) (ukey : Option CStr) : RedisProg Int := do
  let some skey ← (redisSessionKey keyPrefix id).lift | return -1
  let _ ← redisCommand (.del skey)
  let some ukey := ukey | return 0
  let _ ← redisCommand (.srem ukey id)
  return 0

/-- `redis_delete` of an id; `get` is its lookup. -/
def redisDeleteWith (get : CStr → RedisProg (Option Session)) (keyPrefix id : CStr) : RedisProg Int := do
  let session ← get id
  let ukey ← (userKeyOf keyPrefix session).lift
  redisRemove keyPrefix id ukey

/-- What `redis_get` makes of the text it reads; `delete` is its call of `redis_delete`. -/
def redisGetText (L : Extern) (delete : RedisProg Int) (json : CStr) : RedisProg (Option Session) := do
  if !(← (malloc sizeofSession).lift) then return none
  let (rc, session) ← (sessionFromJson L json sessionInit).lift
  if rc ≠ 0 then return none
  if ← (isExpired session).lift then
    let _ ← delete
    return none
  return some session

def redisGetReply (L : Extern) (delete : RedisProg Int) (reply : Option RedisReply) : RedisProg (Option Session) :=
  match reply with
  | some (.string json) => redisGetText L delete json
  | _ => pure none

def redisGet (L : Extern) (keyPrefix : CStr) : Nat → CStr → RedisProg (Option Session)
  | 0, _ => (undefinedBehavior : Prog Sys (Option Session)).lift
  | frames + 1, id => do
    let some skey ← (redisSessionKey keyPrefix id).lift | return none
    let reply ← redisCommand (.get skey)
    redisGetReply L (redisDeleteWith (redisGet L keyPrefix frames) keyPrefix id) reply

def redisDelete (L : Extern) (keyPrefix : CStr) (frames : Nat) (id : CStr) : RedisProg Int :=
  redisDeleteWith (redisGet L keyPrefix frames) keyPrefix id

/-- The session must exist before it is overwritten. -/
def redisUpdate (L : Extern) (keyPrefix : CStr) (frames : Nat) (session : Session) : RedisProg Int :=
  match session.id with
  | none => pure (-1)
  | some id => do
    let some _ ← redisGet L keyPrefix frames id | return -1
    redisCreate L keyPrefix session

/-- The session at one member of the user's set; another kind of element is passed over. -/
def redisGetMember (get : CStr → RedisProg (Option Session)) (element : RedisReply) : RedisProg (Option Session) :=
  match element with
  | .string id => get id
  | _ => pure none

/-- The loop over the elements; it gives up when the array cannot grow. -/
def redisCollect (get : CStr → RedisProg (Option Session)) :
    List RedisReply → List Session → RedisProg (Option (List Session))
  | [], sessions => pure (some sessions)
  | element :: rest, sessions => do
    let some session ← redisGetMember get element | redisCollect get rest sessions
    if !(← (malloc ((sessions.length + 1) * sizeofSession)).lift) then return none
    redisCollect get rest (sessions ++ [session])

def redisMembers (get : CStr → RedisProg (Option Session)) (reply : Option RedisReply) :
    RedisProg (Option (List Session)) :=
  match reply with
  | some .nil => pure (some [])
  | some (.array elements) => redisCollect get elements []
  | _ => pure none

def redisGetByUserId (L : Extern) (keyPrefix : CStr) (frames : Nat) (userId : CStr) :
    RedisProg (Option (List Session)) := do
  let some ukey ← (redisUserKey keyPrefix (some userId)).lift | return none
  let reply ← redisCommand (.smembers ukey)
  redisMembers (redisGet L keyPrefix frames) reply

/-- Each session deleted by its own id; a session without one is passed over. -/
def redisDeleteEach (delete : CStr → RedisProg Int) : List Session → RedisProg Unit
  | [] => pure ()
  | session :: rest => do
    match session.id with
    | none => redisDeleteEach delete rest
    | some id => do
      let _ ← delete id
      redisDeleteEach delete rest

def redisDeleteByUserId (L : Extern) (keyPrefix : CStr) (frames : Nat) (userId : CStr) : RedisProg Int := do
  let some sessions ← redisGetByUserId L keyPrefix frames userId | return -1
  redisDeleteEach (redisDelete L keyPrefix frames) sessions
  let some ukey ← (redisUserKey keyPrefix (some userId)).lift | return 0
  let _ ← redisCommand (.del ukey)
  return 0

/-- The Redis store behind the store interface. -/
def redisStore (L : Extern) (keyPrefix : CStr) (frames : Nat) : (o : StoreOp) → RedisProg (StoreOp.Ans o)
  | .create session => redisCreate L keyPrefix session
  | .get none => pure none
  | .get (some id) => redisGet L keyPrefix frames id
  | .update session => redisUpdate L keyPrefix frames session
  | .delete none => pure (-1)
  | .delete (some id) => redisDelete L keyPrefix frames id
  | .getByUserId none => pure none
  | .getByUserId (some userId) => redisGetByUserId L keyPrefix frames userId
  | .deleteByUserId none => pure (-1)
  | .deleteByUserId (some userId) => redisDeleteByUserId L keyPrefix frames userId

end OpenDbsc
