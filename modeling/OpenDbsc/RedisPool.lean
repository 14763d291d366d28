/-
Calls of the Redis store made at once, one command at a time, and what each
call contributes to an interleaving: which commands it issues, and in what
order.
-/
import OpenDbsc.Effects.Pool
import OpenDbsc.RedisIndex

namespace OpenDbsc

open Effects Prog

/-! ## Properties of a call, by its parts -/

/-- A command with its reply. -/
abbrev replied (o : RedisOp) (reply : Option RedisReply) : Event (Sys.sum RedisSig) := ⟨.inr o, reply⟩

/-- A property that programs have when their parts do, whatever the runtime answers. -/
structure Compositional (C : (α : Type) → RedisProg α → Prop) : Prop where
  pure : ∀ {α : Type} (a : α), C α (pure a)
  bind : ∀ {α β : Type} {p : RedisProg α} {f : α → RedisProg β}, C α p → (∀ a, C β (f a)) → C β (p >>= f)
  env : ∀ {α : Type} (o : Sys.Op) {k : Sys.Ans o → RedisProg α}, (∀ x, C α (k x)) → C α (.op (.inl o) k)

/-- What returns a key returns the key asked for. -/
theorem trace_redisKey {key : CStr} {tr out} (h : Trace (redisKey key) tr out) : out = some key ∨ out = none := by
  rw [redisKey, trace_bind] at h
  obtain ⟨tr₁, b, tr₂, rfl, -, h⟩ := h
  cases b with
  | true => exact .inl (trace_pure.mp h).2
  | false => exact .inr (trace_pure.mp h).2

namespace Compositional

variable {C : (α : Type) → RedisProg α → Prop} {L : Extern} {keyPrefix : CStr}

theorem lift (hC : Compositional C) {α : Type} (p : Prog Sys α) : C α (p.lift (T := RedisSig)) := by
  induction p with
  | ret a => exact hC.pure a
  | op o k ih => exact hC.env o ih

/-- A key is asked for, and what is done with it is done with that key. -/
theorem keyed (hC : Compositional C) {α : Type} {key : CStr} {f : Option CStr → RedisProg α}
    (hsome : C α (f (some key)))
    (hnone : C α (f none)) : C α ((redisKey key).lift >>= f) := by
  refine hC.env (.malloc (key.length + 1)) fun b => ?_
  cases b with
  | true => exact hsome
  | false => exact hnone

/-- `C` holds of the commands of a deletion. -/
def Removes (C : (α : Type) → RedisProg α → Prop) (keyPrefix : CStr) : Prop :=
  ∀ id (ukey : Option CStr), (∀ key ∈ ukey, ∃ userId, key = userKey keyPrefix userId) →
    C Int (redisRemove keyPrefix id ukey)

theorem redisDeleteWith (hC : Compositional C) (hremove : Removes C keyPrefix) {get : CStr → RedisProg (Option Session)}
    (hget : ∀ id, C _ (get id)) (id : CStr) : C Int (redisDeleteWith get keyPrefix id) := by
  have hnone : C Int (redisRemove keyPrefix id none) := by
    refine hremove id none ?_
    intro key hkey
    cases hkey
  refine hC.bind (hget id) fun session => ?_
  cases session with
  | none => exact hnone
  | some session =>
    refine hC.keyed (hremove id _ ?_) hnone
    intro key hkey
    exact ⟨session.userId, (Option.some.inj hkey).symm⟩

theorem redisGet (hC : Compositional C) (hremove : Removes C keyPrefix)
    (hget : ∀ id, C _ (redisCommand (.get (sessionKey keyPrefix id)))) (frames : Nat) (id : CStr) :
    C _ (redisGet L keyPrefix frames id) := by
  induction frames generalizing id with
  | zero => exact hC.lift _
  | succ frames ih =>
    unfold OpenDbsc.redisGet
    refine hC.keyed ?_ (hC.pure none)
    refine hC.bind (hget id) fun reply => ?_
    unfold redisGetReply
    split
    · unfold redisGetText
      refine hC.bind (hC.lift _) fun b => ?_
      split
      · exact hC.pure none
      · refine hC.bind (hC.lift _) fun r => ?_
        show C _ (if r.1 ≠ 0 then _ else _)
        split
        · exact hC.pure none
        · refine hC.bind (hC.lift _) fun expired => ?_
          split
          · exact hC.bind (hC.redisDeleteWith hremove ih id) fun _ => hC.pure none
          · exact hC.pure _
    · exact hC.pure none

theorem redisCreate (hC : Compositional C) {s : Session} (hwrite : ∀ id json ex, s.id = some id →
    C _ (redisWrite (sessionKey keyPrefix id) (userKey keyPrefix s.userId) id json ex)) :
    C _ (redisCreate L keyPrefix s) := by
  unfold OpenDbsc.redisCreate
  split
  · exact hC.pure (-1)
  · rename_i id hid
    refine hC.bind (hC.lift _) fun json => ?_
    cases json with
    | none => exact hC.pure (-1)
    | some json =>
      refine hC.keyed ?_ ?_
      · refine hC.keyed ?_ (hC.pure (-1))
        exact hC.bind (hC.lift _) fun ex => hwrite id json ex hid
      · exact hC.bind (hC.lift _) fun ukey => hC.pure (-1)

theorem redisGetByUserId (hC : Compositional C) {user : CStr} {frames : Nat}
    (hget : ∀ id, C _ (OpenDbsc.redisGet L keyPrefix frames id))
    (hsmembers : C _ (redisCommand (.smembers (userKey keyPrefix (some user))))) :
    C _ (redisGetByUserId L keyPrefix frames user) := by
  have hcollect : ∀ elements sessions, C _ (redisCollect (OpenDbsc.redisGet L keyPrefix frames) elements sessions) := by
    intro elements
    induction elements with
    | nil => exact fun sessions => hC.pure (some sessions)
    | cons element rest ih =>
      intro sessions
      have hmember : C _ (redisGetMember (OpenDbsc.redisGet L keyPrefix frames) element) := by
        unfold redisGetMember
        split
        · exact hget _
        · exact hC.pure none
      unfold redisCollect
      refine hC.bind hmember fun session => ?_
      cases session with
      | none => exact ih sessions
      | some session =>
        refine hC.bind (hC.lift _) fun b => ?_
        split
        · exact hC.pure none
        · exact ih _
  refine hC.keyed ?_ (hC.pure none)
  refine hC.bind hsmembers fun reply => ?_
  unfold redisMembers
  split
  · exact hC.pure (some [])
  · exact hcollect _ _
  · exact hC.pure none

theorem redisDeleteEach (hC : Compositional C) {delete : CStr → RedisProg Int} (hdelete : ∀ id, C _ (delete id))
    (sessions : List Session) : C _ (redisDeleteEach delete sessions) := by
  induction sessions with
  | nil => exact hC.pure ()
  | cons session rest ih =>
    unfold OpenDbsc.redisDeleteEach
    split
    · exact ih
    · exact hC.bind (hdelete _) fun _ => ih

/-- What holds of a call's commands, in the groups they come in, holds of the call. -/
theorem redisStore (hC : Compositional C) (hremove : Removes C keyPrefix)
    (hget : ∀ id, C _ (redisCommand (.get (sessionKey keyPrefix id))))
    (hsmembers : ∀ user, C _ (redisCommand (.smembers (userKey keyPrefix (some user))))) {op : StoreOp}
    (hwrite : ∀ s id json ex, op.written = some s → s.id = some id →
      C _ (redisWrite (sessionKey keyPrefix id) (userKey keyPrefix s.userId) id json ex))
    (hdrop : ∀ user, op = .deleteByUserId (some user) → C _ (redisCommand (.del (userKey keyPrefix (some user)))))
    (frames : Nat) : C _ (redisStore L keyPrefix frames op) := by
  have hlookup : ∀ id, C _ (OpenDbsc.redisGet L keyPrefix frames id) := hC.redisGet hremove hget frames
  have hdelete : ∀ id, C _ (redisDelete L keyPrefix frames id) := hC.redisDeleteWith hremove hlookup
  cases op with
  | create s => exact hC.redisCreate fun id json ex hid => hwrite s id json ex rfl hid
  | get id =>
    cases id with
    | none => exact hC.pure none
    | some id => exact hlookup id
  | update s =>
    show C _ (redisUpdate L keyPrefix frames s)
    unfold redisUpdate
    split
    · exact hC.pure (-1)
    · refine hC.bind (hlookup _) fun found => ?_
      cases found with
      | none => exact hC.pure (-1)
      | some _ => exact hC.redisCreate fun id json ex hid => hwrite s id json ex rfl hid
  | delete id =>
    cases id with
    | none => exact hC.pure (-1)
    | some id => exact hdelete id
  | getByUserId user =>
    cases user with
    | none => exact hC.pure none
    | some user => exact hC.redisGetByUserId hlookup (hsmembers user)
  | deleteByUserId user =>
    cases user with
    | none => exact hC.pure (-1)
    | some user =>
      refine hC.bind (hC.redisGetByUserId hlookup (hsmembers user)) fun found => ?_
      cases found with
      | none => exact hC.pure (-1)
      | some sessions =>
        refine hC.bind (hC.redisDeleteEach hdelete sessions) fun _ => hC.keyed ?_ (hC.pure 0)
        exact hC.bind (hdrop user rfl) fun _ => hC.pure 0

end Compositional

/-! ## The commands of a call -/

/-- `ψ` of the commands; the runtime's operations are free. -/
def Commands (ψ : RedisOp → Prop) : (Sys.sum RedisSig).Op → Prop
  | .inl _ => True
  | .inr o => ψ o

/-- `ψ` allows what a lookup or a deletion may issue. -/
structure AllowsLookup (keyPrefix : CStr) (ψ : RedisOp → Prop) : Prop where
  get : ∀ id, ψ (.get (sessionKey keyPrefix id))
  del : ∀ id, ψ (.del (sessionKey keyPrefix id))
  srem : ∀ userId id, ψ (.srem (userKey keyPrefix userId) id)

section

variable {L : Extern} {keyPrefix : CStr} {ψ : RedisOp → Prop}

theorem compositional_allOps (ψ : RedisOp → Prop) : Compositional fun _ p => AllOps (Commands ψ) p where
  pure _ := allOps_pure _
  bind hp hf := hp.bind hf
  env _ _ h := ⟨trivial, h⟩

theorem allOps_command {o : RedisOp} (h : ψ o) : AllOps (Commands ψ) (redisCommand o) := allOps_perform h

theorem AllowsLookup.removes (hψ : AllowsLookup keyPrefix ψ) :
    Compositional.Removes (fun _ p => AllOps (Commands ψ) p) keyPrefix := by
  intro id ukey hukey
  refine (compositional_allOps ψ).keyed ?_ (allOps_pure _)
  refine (allOps_command (hψ.del id)).bind fun _ => ?_
  cases ukey with
  | none => exact allOps_pure _
  | some key =>
    obtain ⟨userId, rfl⟩ := hukey key rfl
    exact (allOps_command (hψ.srem userId id)).bind fun _ => allOps_pure _

theorem allOps_redisGet (hψ : AllowsLookup keyPrefix ψ) (frames : Nat) (id : CStr) :
    AllOps (Commands ψ) (redisGet L keyPrefix frames id) :=
  (compositional_allOps ψ).redisGet hψ.removes (fun id => allOps_command (hψ.get id)) frames id

end

/-- The commands that a call of the store may issue. -/
def StoreOp.MayIssue (keyPrefix : CStr) (op : StoreOp) : RedisOp → Prop
  | .set key _ _ => ∃ s id, op.written = some s ∧ s.id = some id ∧ key = sessionKey keyPrefix id
  | .sadd key member => ∃ s, op.written = some s ∧ s.id = some member ∧ key = userKey keyPrefix s.userId
  | .get key => ∃ id, key = sessionKey keyPrefix id
  | .del key => (∃ id, key = sessionKey keyPrefix id) ∨
      ∃ user, op = .deleteByUserId (some user) ∧ key = userKey keyPrefix (some user)
  | .srem key _ => ∃ userId, key = userKey keyPrefix userId
  | .smembers key => ∃ user, key = userKey keyPrefix (some user)

theorem allowsLookup_mayIssue (keyPrefix : CStr) (op : StoreOp) : AllowsLookup keyPrefix (op.MayIssue keyPrefix) where
  get id := ⟨id, rfl⟩
  del id := .inl ⟨id, rfl⟩
  srem userId _ := ⟨userId, rfl⟩

/-- **What a call issues.** -/
theorem allOps_redisStore (L : Extern) (keyPrefix : CStr) (frames : Nat) (op : StoreOp) :
    AllOps (Commands (op.MayIssue keyPrefix)) (redisStore L keyPrefix frames op) := by
  have hψ := allowsLookup_mayIssue keyPrefix op
  refine (compositional_allOps _).redisStore hψ.removes (fun id => allOps_command (hψ.get id))
    (fun user => allOps_command ?_) (fun s id json ex hwritten hid => ?_) (fun user hop => allOps_command ?_) frames
  · exact ⟨user, rfl⟩
  · refine AllOps.bind (allOps_command ?_) fun reply => ?_
    · exact ⟨s, id, hwritten, hid, rfl⟩
    · split
      · exact allOps_pure _
      · refine AllOps.bind (allOps_command ?_) fun reply => ?_
        · exact ⟨s, hwritten, hid, rfl⟩
        · split <;> exact allOps_pure _
  · exact Or.inr ⟨user, hop, rfl⟩

/-! ## Calls at once -/

def RedisOp.isSet : RedisOp → Bool
  | .set .. => true
  | _ => false

def RedisOp.isSadd : RedisOp → Bool
  | .sadd .. => true
  | _ => false

def RedisOp.isDel : RedisOp → Bool
  | .del _ => true
  | _ => false

/-- The commands that take something away. -/
def RedisOp.isRemoval : RedisOp → Bool
  | .del _ => true
  | .srem .. => true
  | _ => false

/-- The calls at once, on one keyspace. -/
abbrev RedisPool {ι : Type} (calls : ι → StoreOp) := Pool Sys RedisSig (fun i => (calls i).Ans) Keyspace

namespace RedisPool

variable {ι : Type} {calls : ι → StoreOp}

def start (L : Extern) (keyPrefix : CStr) (frames : Nat) (calls : ι → StoreOp) (ks : Keyspace) : RedisPool calls :=
  ⟨fun i => redisStore L keyPrefix frames (calls i), ks⟩

abbrev Move (calls : ι → StoreOp) := Transition (RedisPool calls) (Pool.Label Sys RedisSig ι)

/-- Call `i` gets a reply to a command. -/
def Replies (t : Move calls) (i : ι) (o : RedisOp) (reply : Option RedisReply) : Prop :=
  t.label = some (i, replied o reply)

/-- A command of the kind is answered. -/
def answers (kind : RedisOp → Bool) (t : Move calls) : Bool :=
  match t.label with
  | some (_, ⟨.inr o, _⟩) => kind o
  | _ => false

theorem Replies.answers {t : Move calls} {i o reply} (h : Replies t i o reply) (kind : RedisOp → Bool) :
    answers kind t = kind o := by
  unfold RedisPool.answers
  rw [show t.label = _ from h]

end RedisPool

section

variable {ι : Type} [DecidableEq ι] {calls : ι → StoreOp} {L : Extern} {keyPrefix : CStr} {frames : Nat}
  {ks₀ : Keyspace}
  {B : Comp Sys RedisSig Keyspace} {h : List (RedisPool.Move calls)} {P : RedisPool calls}

/-- Each command of an interleaving is one its call may issue. -/
theorem mayIssue_of_run (hrun : Run (Pool.Step B Keyspace.Evicts) (RedisPool.start L keyPrefix frames calls ks₀) h P)
    {t : RedisPool.Move calls} (ht : t ∈ h) {i o reply} (hreply : RedisPool.Replies t i o reply) :
    (calls i).MayIssue keyPrefix o :=
  (allOps_redisStore L keyPrefix frames (calls i)).steps (Pool.steps hrun i) (replied o reply)
    (Pool.mem_eventsOf.mpr ⟨t, ht, hreply⟩)

end

/-! ## Concrete interleavings -/

/-- Nothing fails, and the clock stands still. -/
def steadySys (now : Int) : (o : Sys.Op) → Option (Sys.Ans o)
  | .malloc _ => some true
  | .library => some true
  | .time => some now
  | _ => none

/-- The server answers every command, a set's members in their order. -/
def steadyServer (o : RedisOp) (ks : Keyspace) : Option RedisReply × Keyspace := (some (ks.answer o).1, (ks.answer o).2)

theorem steadyServer_server (o : RedisOp) (ks : Keyspace) :
    ∃ tr, redisServer o ks tr (steadyServer o ks).1 (steadyServer o ks).2 := ⟨[], rfl, rfl, _, .refl _, rfl⟩

theorem steadyServer_connection (o : RedisOp) (ks : Keyspace) :
    ∃ tr, redisConnection o ks tr (steadyServer o ks).1 (steadyServer o ks).2 :=
  (steadyServer_server o ks).imp fun _ h => .inl h

end OpenDbsc
