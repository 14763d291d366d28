/-
The Redis server, as far as the store uses it.

`Keyspace.answer` carries out one command. A set's members come back in any
order; a key that expires may go at any time (`Evicts`); a connection may be
lost before or after a command is carried out (`redisConnection`), and the server
may refuse one (`redisTrouble`). `redisLogged` also writes down what was carried out.
-/
import OpenDbsc.Redis
import Mathlib.Logic.Function.Basic

namespace OpenDbsc

open Effects

inductive RedisValue where
  | string (s : CStr)
  | set (members : List CStr)
  /-- A value of another type. -/
  | other
  deriving DecidableEq

structure RedisEntry where
  value : RedisValue
  /-- Whether the key has a time to live. -/
  expires : Bool
  deriving DecidableEq

abbrev Keyspace := CStr → Option RedisEntry

namespace Keyspace

def empty : Keyspace := fun _ => none

/-- `SADD`: a missing key becomes a set. -/
def sadd (ks : Keyspace) (key member : CStr) : RedisReply × Keyspace :=
  match ks key with
  | none => (.integer, Function.update ks key (some ⟨.set [member], false⟩))
  | some ⟨.set members, expires⟩ =>
    (.integer, Function.update ks key
      (some ⟨.set (if member ∈ members then members else members ++ [member]), expires⟩))
  | some _ => (.error, ks)

/-- `SREM`: an empty set is no key. -/
def srem (ks : Keyspace) (key member : CStr) : RedisReply × Keyspace :=
  match ks key with
  | none => (.integer, ks)
  | some ⟨.set members, expires⟩ =>
    let rest := members.filter (· ≠ member)
    (.integer, Function.update ks key (if rest = [] then none else some ⟨.set rest, expires⟩))
  | some _ => (.error, ks)

def get (ks : Keyspace) (key : CStr) : RedisReply :=
  match ks key with
  | none => .nil
  | some ⟨.string s, _⟩ => .string s
  | some _ => .error

def smembers (ks : Keyspace) (key : CStr) : RedisReply :=
  match ks key with
  | none => .array []
  | some ⟨.set members, _⟩ => .array (members.map .string)
  | some _ => .error

def answer (ks : Keyspace) : RedisOp → RedisReply × Keyspace
  | .set key value ex => (.status, Function.update ks key (some ⟨.string value, ex.isSome⟩))
  | .get key => (ks.get key, ks)
  | .del key => (.integer, Function.update ks key none)
  | .sadd key member => ks.sadd key member
  | .srem key member => ks.srem key member
  | .smembers key => (ks.smembers key, ks)

/-- The server drops a key whose time to live is over. -/
inductive Evicts (ks : Keyspace) : Keyspace → Prop
  | key {key : CStr} {value : RedisValue} (h : ks key = some ⟨value, true⟩) : Evicts ks (Function.update ks key none)

end Keyspace

/-- The same reply, an array in any order. -/
inductive RedisReply.Reorders : RedisReply → RedisReply → Prop
  | refl (r : RedisReply) : Reorders r r
  | array {xs ys : List RedisReply} (h : xs.Perm ys) : Reorders (.array xs) (.array ys)

/-- The server, with every command answered. -/
def redisServer : Comp Sys RedisSig Keyspace := fun o ks tr reply ks' =>
  tr = [] ∧ ks' = (ks.answer o).2 ∧ ∃ r, RedisReply.Reorders (ks.answer o).1 r ∧ reply = some r

/-- The server behind a connection that may be lost. -/
def redisConnection : Comp Sys RedisSig Keyspace := fun o ks tr reply ks' =>
  redisServer o ks tr reply ks' ∨ tr = [] ∧ reply = none ∧ (ks' = ks ∨ ks' = (ks.answer o).2)

/-- The connection, where the server may also refuse a command and leave everything as it is. -/
def redisTrouble : Comp Sys RedisSig Keyspace := fun o ks tr reply ks' =>
  redisConnection o ks tr reply ks' ∨ tr = [] ∧ reply = some .error ∧ ks' = ks

/-- The keyspace, and the commands the server has carried out. -/
structure RedisLog where
  keyspace : Keyspace
  carried : List RedisOp

/-- A command carried out. -/
def RedisLog.carry (log : RedisLog) (o : RedisOp) : RedisLog := ⟨(log.keyspace.answer o).2, log.carried ++ [o]⟩

/-- `redisTrouble`, with the commands that are carried out written down. -/
def redisLogged : Comp Sys RedisSig RedisLog := fun o log tr reply log' =>
  tr = [] ∧ (log' = log.carry o ∧
      (reply = none ∨ ∃ r, RedisReply.Reorders (log.keyspace.answer o).1 r ∧ reply = some r) ∨
    log' = log ∧ (reply = none ∨ reply = some .error))

theorem redisLogged_trouble {o : RedisOp} {log : RedisLog} {ks' : Keyspace} {tr : List (Event Sys)}
    {reply : Option RedisReply} :
    (∃ log', redisLogged o log tr reply log' ∧ log'.keyspace = ks') ↔ redisTrouble o log.keyspace tr reply ks' := by
  constructor
  · rintro ⟨_, ⟨htr, ⟨rfl, hreply⟩ | ⟨rfl, hreply⟩⟩, rfl⟩
    · rcases hreply with hreply | ⟨r, hr, hreply⟩
      · exact .inl (.inr ⟨htr, hreply, .inr rfl⟩)
      · exact .inl (.inl ⟨htr, rfl, r, hr, hreply⟩)
    · rcases hreply with hreply | hreply
      · exact .inl (.inr ⟨htr, hreply, .inl rfl⟩)
      · exact .inr ⟨htr, hreply, rfl⟩
  · rintro ((⟨htr, rfl, r, hr, hreply⟩ | ⟨htr, hreply, rfl | rfl⟩) | ⟨htr, hreply, rfl⟩)
    · exact ⟨_, ⟨htr, .inl ⟨rfl, .inr ⟨r, hr, hreply⟩⟩⟩, rfl⟩
    · exact ⟨log, ⟨htr, .inr ⟨rfl, .inl hreply⟩⟩, rfl⟩
    · exact ⟨_, ⟨htr, .inl ⟨rfl, .inl hreply⟩⟩, rfl⟩
    · exact ⟨log, ⟨htr, .inr ⟨rfl, .inr hreply⟩⟩, rfl⟩

/-! ## Keys -/

theorem sessionKey_inj {keyPrefix id id' : CStr} : sessionKey keyPrefix id = sessionKey keyPrefix id' ↔ id = id' := by
  unfold sessionKey
  exact List.append_right_inj _

theorem userKey_inj {keyPrefix : CStr} {userId userId' : Option CStr} :
    userKey keyPrefix userId = userKey keyPrefix userId' ↔ percentS userId = percentS userId' := by
  unfold userKey
  exact List.append_right_inj _

/-- No session's key is a user's. -/
theorem sessionKey_ne_userKey (keyPrefix id : CStr) (userId : Option CStr) :
    sessionKey keyPrefix id ≠ userKey keyPrefix userId := by
  unfold sessionKey userKey
  rw [List.append_assoc, List.append_assoc]
  intro h
  have htail := List.append_cancel_left h
  cases htail

end OpenDbsc
