/-
What a call of the Redis store returns and leaves, in the terms of what is
stored, while the clock is at `now` at the latest.

A key is told by what can be read at it: `readSession` is the session there,
if its text is one. A session that has not run out by `now` is found; one that
has sends `redis_get` and `redis_delete` round and round.
-/
import OpenDbsc.Effects.Total
import OpenDbsc.RedisCodec
import OpenDbsc.RedisServer

namespace OpenDbsc

open Effects Prog

/-- The clock has not passed `now`. -/
def ClockBy (now : Int) (e : Event Sys) : Prop := ∀ r, readingOf e = some r → r ≤ now

/-- No allocation fails. -/
def AllocsSucceed (e : Event Sys) : Prop := ∀ x, allocOk e.op = some x → e.ans = x

/-- Nor does any allocation fail. -/
def Steady (now : Int) (e : Event Sys) : Prop := ClockBy now e ∧ ∀ x, allocOk e.op = some x → e.ans = x

section

variable {now : Int}

theorem returns_malloc {n : Nat} {Q : Bool → Prop} : Returns (ClockBy now) (malloc n) Q ↔ ∀ b, Q b := by
  have hfree : ∀ b : Bool, ClockBy now ⟨.malloc n, b⟩ := fun b r hr => nomatch hr
  exact ⟨fun h b => h.2 b (hfree b), fun h => ⟨⟨true, hfree true⟩, fun b _ => h b⟩⟩

theorem returns_libraryAlloc {Q : Bool → Prop} : Returns (ClockBy now) libraryAlloc Q ↔ ∀ b, Q b := by
  have hfree : ∀ b : Bool, ClockBy now ⟨.library, b⟩ := fun b r hr => nomatch hr
  exact ⟨fun h b => h.2 b (hfree b), fun h => ⟨⟨true, hfree true⟩, fun b _ => h b⟩⟩

theorem clockBy_time {r : Int} : ClockBy now ⟨.time, r⟩ ↔ r ≤ now :=
  ⟨fun h => h r rfl, fun h _ hr => Option.some.inj hr ▸ h⟩

theorem steady_time {r : Int} : Steady now ⟨.time, r⟩ ↔ r ≤ now := by
  refine ⟨fun h => clockBy_time.mp h.1, fun h => ⟨clockBy_time.mpr h, fun x hx => ?_⟩⟩
  cases hx

theorem steady_alloc {o : Sys.Op} {x y : Sys.Ans o} (h : allocOk o = some x) : Steady now ⟨o, y⟩ ↔ y = x := by
  constructor
  · exact fun hs => hs.2 x h
  · intro hxy
    have hno : readingOf ⟨o, y⟩ = none := by
      cases o with
      | time => cases h
      | _ => rfl
    refine ⟨fun r hr => ?_, fun z hz => ?_⟩
    · rw [hno] at hr
      cases hr
    · rw [hxy]
      exact Option.some.inj (h.symm.trans hz)

theorem returns_steady {α : Type} {p : Prog Sys α} {Q : α → Prop} :
    Returns (Steady now) p Q ↔ Returns (Steady now) (p.assuming allocOk) Q :=
  (returns_assuming fun _ _ _ h => steady_alloc h).symm

/-- What is sure when allocations may fail is sure when none does. -/
theorem total_steady {α σ : Type} {T : Sig} {B : Comp Sys T σ} {p : Prog (Sys.sum T) α} {Q : α → σ → Prop} {st : σ}
    (h : Total (ClockBy now) B p Q st) : Total (Steady now) B p Q st := by
  refine h.narrow (fun e he => he.1) fun o ho => ?_
  cases hf : allocOk o with
  | some x => exact ⟨x, (steady_alloc hf).mpr rfl⟩
  | none =>
    obtain ⟨x, hx⟩ := ho
    refine ⟨x, hx, fun y hy => ?_⟩
    rw [hf] at hy
    cases hy

end

/-! ## A text that is read while allocations may fail -/

namespace Session

/-- The same id and expiry. -/
def Agrees (s s' : Session) : Prop :=
  s.id = s'.id ∧ s.expiresAt = s'.expiresAt ∧ s.hasExpires = s'.hasExpires

/-- The same expiry, and the same id if there is one. -/
def Resembles (s s' : Session) : Prop :=
  (s.id = none ∨ s.id = s'.id) ∧ s.expiresAt = s'.expiresAt ∧ s.hasExpires = s'.hasExpires

theorem Agrees.trans {s₁ s₂ s₃ : Session} (h : s₁.Agrees s₂) (h' : s₂.Agrees s₃) : s₁.Agrees s₃ :=
  ⟨h.1.trans h'.1, h.2.1.trans h'.2.1, h.2.2.trans h'.2.2⟩

/-- Without an expiry, clearing it changes nothing. -/
theorem Agrees.cleared {s s' : Session} (h : s.Agrees s') (hs' : sessionSetExpiresAt s' 0 = s') :
    sessionSetExpiresAt s 0 = s := by
  have hexp := congrArg Session.expiresAt hs'
  have hhas := congrArg Session.hasExpires hs'
  obtain ⟨-, he, hh⟩ := h
  rw [← he] at hexp
  rw [← hh] at hhas
  cases s
  cases hexp
  cases hhas
  rfl

theorem Resembles.expiredAt {s s' : Session} (h : s.Resembles s') (now : Int) : s.expiredAt now = s'.expiredAt now := by
  unfold Session.expiredAt
  rw [h.2.1, h.2.2]

end Session

section

variable {now : Int}

theorem returns_setField {put : Option CStr → Session} {field value : Option CStr} {Q : Int × Session → Prop}
    (hold : ∀ rc, Q (rc, put field)) (hnew : ∀ rc, Q (rc, put value)) :
    Returns (ClockBy now) (setField put field value) Q := by
  unfold setField setString
  cases value with
  | none => exact hnew 0
  | some value =>
    simp only [strdup, returns_bind, returns_malloc]
    intro b
    cases b with
    | false => exact hold (-1)
    | true => exact hnew 0

/-- A setter of a field other than the id and the expiry. -/
def LeavesCore (set : Session → Option CStr → Prog Sys (Int × Session)) : Prop :=
  ∀ now s v, Returns (ClockBy now) (set s v) fun r => r.2.Agrees s

theorem returns_setIfString {set : Session → Option CStr → Prog Sys (Int × Session)} (hset : LeavesCore set)
    (s : Session) (item : Option Json) : Returns (ClockBy now) (setIfString set s item) fun s' => s'.Agrees s := by
  unfold setIfString
  cases Json.asString item with
  | none => exact ⟨rfl, rfl, rfl⟩
  | some v =>
    simp only [returns_bind]
    exact hset now s (some v)

theorem leavesCore_userId : LeavesCore sessionSetUserId :=
  fun _ _ _ => returns_setField (fun _ => ⟨rfl, rfl, rfl⟩) fun _ => ⟨rfl, rfl, rfl⟩

theorem leavesCore_publicKey : LeavesCore sessionSetPublicKey :=
  fun _ _ _ => returns_setField (fun _ => ⟨rfl, rfl, rfl⟩) fun _ => ⟨rfl, rfl, rfl⟩

theorem leavesCore_algorithm : LeavesCore sessionSetAlgorithm :=
  fun _ _ _ => returns_setField (fun _ => ⟨rfl, rfl, rfl⟩) fun _ => ⟨rfl, rfl, rfl⟩

theorem leavesCore_challenge : LeavesCore sessionSetChallenge :=
  fun _ _ _ => returns_setField (fun _ => ⟨rfl, rfl, rfl⟩) fun _ => ⟨rfl, rfl, rfl⟩

theorem setStateIfString_agrees (s : Session) (item : Option Json) : (setStateIfString s item).Agrees s := by
  unfold setStateIfString sessionSetStateStr
  split
  · exact ⟨rfl, rfl, rfl⟩
  · split
    · exact ⟨rfl, rfl, rfl⟩
    · split <;> exact ⟨rfl, rfl, rfl⟩

theorem returns_setPublicKeyItem (L : Extern) (s : Session) (item : Option Json) :
    Returns (ClockBy now) (setPublicKeyItem L s item) fun s' => s'.Agrees s := by
  unfold setPublicKeyItem
  split
  · simp only [printField, returns_bind, returns_libraryAlloc]
    intro b
    cases b with
    | false => exact leavesCore_publicKey now s none
    | true => exact leavesCore_publicKey now s _
  · exact returns_setIfString leavesCore_publicKey s item

/-- What is read of a text resembles the session stored in it. -/
theorem returns_sessionFromJson (L : Extern) (json : CStr) (s : Session) :
    Returns (ClockBy now) (sessionFromJson L json s) fun r =>
      r.1 = 0 → ∃ d, storedSession L json = some d ∧ r.2.Resembles d := by
  unfold sessionFromJson
  simp only [cJsonParse, returns_bind, returns_libraryAlloc]
  intro b
  cases b with
  | false => exact fun hrc => by cases hrc
  | true =>
    simp only [if_true, returns_pure]
    cases hparse : L.parse json with
    | none => exact fun hrc => by cases hrc
    | some obj =>
      simp only [returns_bind]
      have hid : Returns (ClockBy now) (setIfString sessionSetId sessionInit (obj.getObjectItem "id")) fun s =>
          (s.id = none ∨ s.id = Json.asString (obj.getObjectItem "id")) ∧ sessionSetExpiresAt s 0 = s := by
        unfold setIfString
        cases Json.asString (obj.getObjectItem "id") with
        | none => exact ⟨.inl rfl, rfl⟩
        | some v =>
          simp only [returns_bind]
          exact returns_setField (fun _ => ⟨.inl rfl, rfl⟩) fun _ => ⟨.inr rfl, rfl⟩
      refine hid.mono fun s₁ hs₁ => (returns_setIfString leavesCore_userId s₁ _).mono fun s₂ hs₂ => ?_
      obtain ⟨hid₁, hexp₁⟩ := hs₁
      have hs₃ := setStateIfString_agrees s₂ (obj.getObjectItem "state")
      generalize setStateIfString s₂ (obj.getObjectItem "state") = s₃ at hs₃ ⊢
      refine (returns_setPublicKeyItem L s₃ _).mono fun s₄ hs₄ => ?_
      refine (returns_setIfString leavesCore_algorithm s₄ _).mono fun s₅ hs₅ => ?_
      refine (returns_setIfString leavesCore_challenge s₅ _).mono fun s₆ hs₆ _ => ?_
      have hs := hs₆.trans (hs₅.trans (hs₄.trans (hs₃.trans hs₂)))
      rw [setTimeIfNumber_expiresAt (hs.cleared hexp₁)]
      refine ⟨sessionOfJson L obj, by rw [storedSession, hparse]; rfl, ?_⟩
      unfold setTimeIfNumber
      have hid : s₆.id = none ∨ s₆.id = (sessionOfJson L obj).id := by
        rw [hs.1]
        exact hid₁
      split <;> exact ⟨hid, rfl, rfl⟩

end

/-! ## One command -/

section

variable {φ : Event Sys → Prop} {o : RedisOp} {ks : Keyspace} {Q : Option RedisReply → Keyspace → Prop}

theorem total_server : Total φ redisServer (redisCommand o) Q ks ↔
    ∀ r, RedisReply.Reorders (ks.answer o).1 r → Q (some r) (ks.answer o).2 := by
  rw [redisCommand, total_call]
  constructor
  · intro h r hr
    exact h [] (some r) _ ⟨rfl, rfl, r, hr, rfl⟩ fun e he => (List.not_mem_nil he).elim
  · intro h tr reply ks' hserve _
    obtain ⟨rfl, rfl, r, hr, rfl⟩ := hserve
    exact h r hr

theorem total_connection : Total φ redisConnection (redisCommand o) Q ks ↔
    (∀ r, RedisReply.Reorders (ks.answer o).1 r → Q (some r) (ks.answer o).2) ∧
      Q none ks ∧ Q none (ks.answer o).2 := by
  rw [redisCommand, total_call]
  constructor
  · intro h
    have hnil : ∀ e ∈ ([] : List (Event Sys)), φ e := fun e he => (List.not_mem_nil he).elim
    exact ⟨fun r hr => h [] (some r) _ (.inl ⟨rfl, rfl, r, hr, rfl⟩) hnil, h [] none _ (.inr ⟨rfl, rfl, .inl rfl⟩) hnil,
      h [] none _ (.inr ⟨rfl, rfl, .inr rfl⟩) hnil⟩
  · intro h tr reply ks' hserve _
    rcases hserve with ⟨rfl, rfl, r, hr, rfl⟩ | ⟨rfl, rfl, rfl | rfl⟩
    · exact h.1 r hr
    · exact h.2.1
    · exact h.2.2

end

namespace RedisReply

theorem reorders_iff {r r' : RedisReply} (h : ∀ xs, r ≠ .array xs) : Reorders r r' ↔ r' = r := by
  constructor
  · intro hr
    cases hr with
    | refl => rfl
    | array => exact absurd rfl (h _)
  · rintro rfl
    exact .refl _

theorem reorders_array {xs : List RedisReply} {r : RedisReply} :
    Reorders (.array xs) r ↔ ∃ ys, xs.Perm ys ∧ r = .array ys := by
  constructor
  · intro hr
    cases hr with
    | refl => exact ⟨xs, .refl xs, rfl⟩
    | array h => exact ⟨_, h, rfl⟩
  · rintro ⟨ys, h, rfl⟩
    exact .array h

end RedisReply

namespace Keyspace

theorem get_ne_array (ks : Keyspace) (key : CStr) (xs : List RedisReply) : ks.get key ≠ .array xs := by
  unfold get
  split <;> exact RedisReply.noConfusion

theorem srem_ne_array (ks : Keyspace) (key member : CStr) (xs : List RedisReply) :
    (ks.srem key member).1 ≠ .array xs := by
  unfold srem
  split <;> exact RedisReply.noConfusion

/-- A command on one key leaves the others. -/
theorem sadd_other (ks : Keyspace) {key other : CStr} (member : CStr) (h : other ≠ key) :
    (ks.sadd key member).2 other = ks other := by
  unfold sadd
  split <;> first | rfl | exact Function.update_of_ne h _ _

theorem srem_other (ks : Keyspace) {key other : CStr} (member : CStr) (h : other ≠ key) :
    (ks.srem key member).2 other = ks other := by
  unfold srem
  split <;> first | rfl | exact Function.update_of_ne h _ _

end Keyspace

/-! ## The store's calls, with nothing failing -/

/-- The session that can be read at a key. -/
def readSession (L : Extern) (ks : Keyspace) (key : CStr) : Option Session :=
  match ks.get key with
  | .string json => storedSession L json
  | _ => none

/-- At this key is a session past its expiry. -/
def HoldsExpired (L : Extern) (ks : Keyspace) (now : Int) (key : CStr) : Prop :=
  ∃ s, readSession L ks key = some s ∧ s.expiredAt now = true

/-- The set at a key. -/
def Keyspace.members (ks : Keyspace) (key : CStr) : List CStr :=
  match ks key with
  | some ⟨.set members, _⟩ => members
  | _ => []

/-- The sessions that can be read at the keys of `ids`. -/
def sessionsAt (L : Extern) (keyPrefix : CStr) (ks : Keyspace) (ids : List CStr) : List Session :=
  ids.filterMap fun id => readSession L ks (sessionKey keyPrefix id)

/-- The keyspace once the session is written under `id`. -/
def Keyspace.write (L : Extern) (keyPrefix : CStr) (ks : Keyspace) (id : CStr) (s : Session) : Keyspace :=
  let entry : RedisEntry := ⟨.string (L.printUnformatted (.obj (sessionFields L s))), s.hasExpires⟩
  (Keyspace.sadd (Function.update ks (sessionKey keyPrefix id) (some entry)) (userKey keyPrefix s.userId) id).2

/-- The keyspace once the session `id` is deleted. -/
def Keyspace.drop (L : Extern) (keyPrefix : CStr) (ks : Keyspace) (id : CStr) : Keyspace :=
  let deleted : Keyspace := Function.update ks (sessionKey keyPrefix id) none
  match readSession L ks (sessionKey keyPrefix id) with
  | none => deleted
  | some s => (Keyspace.srem deleted (userKey keyPrefix s.userId) id).2

section

variable {σ : Type} {B : Comp Sys RedisSig σ} {L : Extern} {now : Int} {st : σ}

theorem Session.expiredAt_earlier {s : Session} {r : Int} (h : s.expiredAt now = false) (hr : r ≤ now) :
    s.expiredAt r = false := by
  rw [Session.expiredAt_eq_false] at h ⊢
  exact fun hexp => Int.le_trans hr (h hexp)

theorem returns_isExpired {φ : Event Sys → Prop} (hφ : ∀ {r : Int}, φ ⟨.time, r⟩ ↔ r ≤ now) {s : Session}
    {Q : Bool → Prop} : Returns φ (isExpired s) Q ↔ ∀ r ≤ now, Q (s.expiredAt r) := by
  unfold isExpired Session.expiredAt
  cases s.hasExpires with
  | false => exact ⟨fun h _ _ => h, fun h => h now (Int.le_refl now)⟩
  | true =>
    simp only [Bool.not_true, Bool.false_eq_true, if_false, Bool.true_and, returns_bind]
    exact ⟨fun h r hr => h.2 r (hφ.mpr hr), fun h => ⟨⟨now, hφ.mpr (Int.le_refl now)⟩, fun r hr => h r (hφ.mp hr)⟩⟩

theorem returns_isExpired_live {φ : Event Sys → Prop} (hφ : ∀ {r : Int}, φ ⟨.time, r⟩ ↔ r ≤ now) {s : Session}
    (hlive : s.expiredAt now = false) {Q : Bool → Prop} : Returns φ (isExpired s) Q ↔ Q false := by
  rw [returns_isExpired hφ]
  constructor
  · intro h
    rw [← hlive]
    exact h now (Int.le_refl now)
  · intro h r hr
    rw [s.expiredAt_earlier hlive hr]
    exact h

theorem total_redisKey {key : CStr} {Q : Option CStr → σ → Prop} :
    Total (Steady now) B (redisKey key).lift Q st ↔ Q (some key) st := by
  rw [total_lift, returns_steady]
  simp [redisKey]

theorem total_malloc {n : Nat} {Q : Bool → σ → Prop} :
    Total (Steady now) B (malloc n).lift Q st ↔ Q true st := by
  rw [total_lift, returns_steady, assuming_malloc, returns_pure]

theorem total_redisGetText {delete : RedisProg Int} {json : CStr} {Q : Option Session → σ → Prop} :
    Total (Steady now) B (redisGetText L delete json) Q st ↔ match storedSession L json with
      | none => Q none st
      | some s => ∀ r ≤ now, if s.expiredAt r then Total (Steady now) B delete (fun _ st' => Q none st') st
        else Q (some s) st := by
  unfold redisGetText storedSession
  simp only [total_bind, total_malloc, Bool.not_true, Bool.false_eq_true, if_false]
  rw [total_lift, returns_steady, assuming_sessionFromJson, returns_pure]
  cases L.parse json with
  | none => exact Iff.rfl
  | some obj =>
    simp only [Option.map_some, ne_eq, not_true, if_false, total_bind]
    rw [total_lift, returns_isExpired steady_time]
    refine forall_congr' fun r => forall_congr' fun _ => ?_
    cases (sessionOfJson L obj).expiredAt r with
    | false => exact Iff.rfl
    | true =>
      simp only [if_true, total_bind]
      exact Iff.rfl

end

section

variable {L : Extern} {keyPrefix : CStr} {now : Int} {ks : Keyspace}

theorem total_redisGet {frames : Nat} {id : CStr} {Q : Option Session → Keyspace → Prop} :
    Total (Steady now) redisServer (redisGet L keyPrefix (frames + 1) id) Q ks ↔
      match readSession L ks (sessionKey keyPrefix id) with
      | none => Q none ks
      | some s => ∀ r ≤ now, if s.expiredAt r then
          Total (Steady now) redisServer (redisDelete L keyPrefix frames id) (fun _ ks' => Q none ks') ks
        else Q (some s) ks := by
  rw [redisGet, total_bind, redisSessionKey, total_redisKey]
  simp only [total_bind]
  rw [total_server]
  simp only [Keyspace.answer, RedisReply.reorders_iff (ks.get_ne_array _), forall_eq]
  unfold readSession redisGetReply
  cases ks.get (sessionKey keyPrefix id) with
  | string json => exact total_redisGetText
  | _ => exact Iff.rfl

theorem total_redisGet_live {frames : Nat} {id : CStr} {Q : Option Session → Keyspace → Prop}
    (hlive : ¬ HoldsExpired L ks now (sessionKey keyPrefix id)) :
    Total (Steady now) redisServer (redisGet L keyPrefix (frames + 1) id) Q ks ↔
      Q (readSession L ks (sessionKey keyPrefix id)) ks := by
  rw [total_redisGet]
  cases hread : readSession L ks (sessionKey keyPrefix id) with
  | none => exact Iff.rfl
  | some s =>
    have hs : s.expiredAt now = false := by
      rw [← Bool.not_eq_true]
      exact fun hexp => hlive ⟨s, hread, hexp⟩
    have hfalse : ∀ r ≤ now, ¬ s.expiredAt r = true := fun r hr => by
      rw [s.expiredAt_earlier hs hr]
      exact Bool.false_ne_true
    constructor
    · intro h
      have hnow := h now (Int.le_refl now)
      rwa [if_neg (hfalse now (Int.le_refl now))] at hnow
    · intro h r hr
      rwa [if_neg (hfalse r hr)]

/-- There is no lookup without stack. -/
theorem redisGet_zero (L : Extern) (keyPrefix id : CStr) (ks : Keyspace) (Q : Option Session → Keyspace → Prop) :
    ¬ Total (Steady now) redisServer (redisGet L keyPrefix 0 id) Q ks := by
  intro h
  obtain ⟨⟨x, -⟩, -⟩ := h
  exact nomatch x

/-- A lookup that finds an expired session deletes it, which looks it up again. -/
theorem redisGet_diverges {id : CStr} (hexp : HoldsExpired L ks now (sessionKey keyPrefix id)) (frames : Nat)
    (Q : Option Session → Keyspace → Prop) :
    ¬ Total (Steady now) redisServer (redisGet L keyPrefix frames id) Q ks := by
  obtain ⟨s, hread, hs⟩ := hexp
  induction frames generalizing Q with
  | zero => exact redisGet_zero L keyPrefix id ks Q
  | succ frames ih =>
    rw [total_redisGet, hread]
    intro h
    have hnow := h now (Int.le_refl now)
    rw [if_pos hs, redisDelete, redisDeleteWith, total_bind] at hnow
    exact ih _ hnow

theorem redisDelete_diverges {id : CStr} (hexp : HoldsExpired L ks now (sessionKey keyPrefix id)) (frames : Nat)
    (Q : Int → Keyspace → Prop) : ¬ Total (Steady now) redisServer (redisDelete L keyPrefix frames id) Q ks := by
  rw [redisDelete, redisDeleteWith, total_bind]
  exact redisGet_diverges hexp frames _

theorem redisDelete_zero (L : Extern) (keyPrefix id : CStr) (ks : Keyspace) (Q : Int → Keyspace → Prop) :
    ¬ Total (Steady now) redisServer (redisDelete L keyPrefix 0 id) Q ks := by
  rw [redisDelete, redisDeleteWith, total_bind]
  exact redisGet_zero L keyPrefix id ks _

theorem total_redisDelete_live {frames : Nat} {id : CStr} {Q : Int → Keyspace → Prop}
    (hlive : ¬ HoldsExpired L ks now (sessionKey keyPrefix id)) :
    Total (Steady now) redisServer (redisDelete L keyPrefix (frames + 1) id) Q ks ↔ Q 0 (ks.drop L keyPrefix id) := by
  rw [redisDelete, redisDeleteWith, total_bind, total_redisGet_live hlive]
  have hdel : ∀ {Q : Option RedisReply → Keyspace → Prop},
      Total (Steady now) redisServer (redisCommand (.del (sessionKey keyPrefix id))) Q ks ↔
        Q (some .integer) (Function.update ks (sessionKey keyPrefix id) none) := by
    intro Q
    rw [total_server]
    simp only [Keyspace.answer, RedisReply.reorders_iff (r := .integer) (fun xs => by simp), forall_eq]
  unfold Keyspace.drop
  cases hread : readSession L ks (sessionKey keyPrefix id) with
  | none =>
    simp only [userKeyOf, lift_pure, pure_bind, redisRemove, total_bind, redisSessionKey, total_redisKey, hdel,
      total_pure]
  | some s =>
    simp only [userKeyOf, redisUserKey, redisRemove, total_bind, redisSessionKey, total_redisKey, hdel]
    rw [total_server]
    simp only [Keyspace.answer, RedisReply.reorders_iff (Keyspace.srem_ne_array _ _ _), forall_eq]
    exact Iff.rfl

/-- One turn of the loop. -/
theorem total_redisCollect_cons {frames : Nat} {id : CStr} {rest : List RedisReply} {found : List Session}
    {Q : Option (List Session) → Keyspace → Prop} (hlive : ¬ HoldsExpired L ks now (sessionKey keyPrefix id)) :
    Total (Steady now) redisServer
        (redisCollect (redisGet L keyPrefix (frames + 1)) (.string id :: rest) found) Q ks ↔
      Total (Steady now) redisServer (redisCollect (redisGet L keyPrefix (frames + 1)) rest
        (found ++ (readSession L ks (sessionKey keyPrefix id)).toList)) Q ks := by
  rw [redisCollect, total_bind, redisGetMember, total_redisGet_live hlive]
  cases readSession L ks (sessionKey keyPrefix id) with
  | none => rw [Option.toList_none, List.append_nil]
  | some s =>
    simp only [total_bind, total_malloc, Bool.not_true, Bool.false_eq_true, if_false]
    exact Iff.rfl

theorem total_redisCollect {frames : Nat} {ids : List CStr} {found : List Session}
    {Q : Option (List Session) → Keyspace → Prop}
    (hlive : ∀ id ∈ ids, ¬ HoldsExpired L ks now (sessionKey keyPrefix id)) :
    Total (Steady now) redisServer
        (redisCollect (redisGet L keyPrefix (frames + 1)) (ids.map .string) found) Q ks ↔
      Q (some (found ++ sessionsAt L keyPrefix ks ids)) ks := by
  induction ids generalizing found with
  | nil =>
    rw [List.map_nil, redisCollect, total_pure, sessionsAt, List.filterMap_nil, List.append_nil]
  | cons id ids ih =>
    rw [List.map_cons, total_redisCollect_cons (hlive id List.mem_cons_self),
      ih fun id' h => hlive id' (List.mem_cons_of_mem _ h)]
    unfold sessionsAt
    rw [List.filterMap_cons]
    cases readSession L ks (sessionKey keyPrefix id) <;> simp

/-- The loop does not return when a key it looks at holds an expired session. -/
theorem redisCollect_live {frames : Nat} {ids : List CStr} {found : List Session}
    {Q : Option (List Session) → Keyspace → Prop}
    (h : Total (Steady now) redisServer (redisCollect (redisGet L keyPrefix frames) (ids.map .string) found) Q ks) :
    ∀ id ∈ ids, ¬ HoldsExpired L ks now (sessionKey keyPrefix id) := by
  induction ids generalizing found with
  | nil => exact fun id hid => (List.not_mem_nil hid).elim
  | cons id ids ih =>
    rw [List.map_cons] at h
    have hget := h
    rw [redisCollect, total_bind] at hget
    have hlive : ¬ HoldsExpired L ks now (sessionKey keyPrefix id) := fun hexp => redisGet_diverges hexp frames _ hget
    cases frames with
    | zero => exact absurd hget (redisGet_zero L keyPrefix id ks _)
    | succ frames =>
      rw [total_redisCollect_cons hlive] at h
      intro id' hid'
      rcases List.mem_cons.mp hid' with rfl | hid'
      · exact hlive
      · exact ih h id' hid'

theorem perm_string {ids : List CStr} {elements : List RedisReply} :
    (ids.map RedisReply.string).Perm elements ↔ ∃ ids', ids.Perm ids' ∧ elements = ids'.map .string := by
  have hinj : Function.Injective RedisReply.string := fun _ _ h => RedisReply.string.inj h
  constructor
  · intro h
    have hrange : elements ∈ { l | ∀ e ∈ l, e ∈ Set.range RedisReply.string } := by
      intro e he
      obtain ⟨id, -, rfl⟩ := List.mem_map.mp (h.mem_iff.mpr he)
      exact ⟨id, rfl⟩
    rw [← Set.range_list_map] at hrange
    obtain ⟨ids', rfl⟩ := hrange
    exact ⟨ids', (List.map_perm_map_iff hinj).mp h, rfl⟩
  · rintro ⟨ids', h, rfl⟩
    exact h.map _

/-- A key with a set, or nothing yet. -/
def Keyspace.IsSet (ks : Keyspace) (key : CStr) : Prop :=
  ∀ entry, ks key = some entry → ∃ members, entry.value = .set members

theorem Keyspace.empty_isSet (key : CStr) : Keyspace.empty.IsSet key := by
  intro entry hentry
  cases hentry

theorem Keyspace.smembers_eq {key : CStr} (h : ks.IsSet key) :
    ks.smembers key = .array ((ks.members key).map .string) := by
  unfold smembers members
  cases hkey : ks key with
  | none => rfl
  | some entry =>
    obtain ⟨value, expires⟩ := entry
    obtain ⟨members, rfl⟩ := h _ hkey
    rfl

theorem Keyspace.smembers_error {key : CStr} (h : ¬ ks.IsSet key) : ks.smembers key = .error ∧ ks.members key = [] := by
  unfold smembers members
  cases hkey : ks key with
  | none => exact absurd (fun entry hentry => by rw [hkey] at hentry; cases hentry) h
  | some entry =>
    obtain ⟨value, expires⟩ := entry
    cases value with
    | set members =>
      refine absurd (fun entry hentry => ?_) h
      rw [hkey] at hentry
      cases hentry
      exact ⟨members, rfl⟩
    | string s => exact ⟨rfl, rfl⟩
    | other => exact ⟨rfl, rfl⟩

theorem total_redisGetByUserId {frames : Nat} {userId : CStr} {Q : Option (List Session) → Keyspace → Prop}
    (hset : ks.IsSet (userKey keyPrefix (some userId))) :
    Total (Steady now) redisServer (redisGetByUserId L keyPrefix frames userId) Q ks ↔
      ∀ ids, (ks.members (userKey keyPrefix (some userId))).Perm ids →
        Total (Steady now) redisServer (redisCollect (redisGet L keyPrefix frames) (ids.map .string) []) Q ks := by
  rw [redisGetByUserId, total_bind, redisUserKey, total_redisKey]
  simp only [total_bind]
  rw [total_server]
  simp only [Keyspace.answer, Keyspace.smembers_eq hset, RedisReply.reorders_array, perm_string]
  constructor
  · exact fun h ids hids => h _ ⟨_, ⟨ids, hids, rfl⟩, rfl⟩
  · rintro h r ⟨_, ⟨ids, hids, rfl⟩, rfl⟩
    exact h ids hids

/-! ### Deleting -/

theorem Keyspace.drop_sessionKey (L : Extern) (keyPrefix : CStr) (ks : Keyspace) (id id' : CStr) :
    ks.drop L keyPrefix id (sessionKey keyPrefix id') = if id' = id then none else ks (sessionKey keyPrefix id') := by
  have hdeleted : Function.update ks (sessionKey keyPrefix id) none (sessionKey keyPrefix id') =
      if id' = id then none else ks (sessionKey keyPrefix id') := by
    simp only [Function.update_apply, sessionKey_inj]
  unfold drop
  cases readSession L ks (sessionKey keyPrefix id) with
  | none => exact hdeleted
  | some s => exact (Keyspace.srem_other _ id (sessionKey_ne_userKey keyPrefix id' s.userId)).trans hdeleted

theorem readSession_congr {ks' : Keyspace} {key : CStr} (h : ks key = ks' key) :
    readSession L ks key = readSession L ks' key := by
  unfold readSession Keyspace.get
  rw [h]

theorem readSession_none {key : CStr} (h : ks key = none) : readSession L ks key = none := by
  unfold readSession Keyspace.get
  rw [h]

theorem readSession_drop (id id' : CStr) : readSession L (ks.drop L keyPrefix id) (sessionKey keyPrefix id') =
    if id' = id then none else readSession L ks (sessionKey keyPrefix id') := by
  have hkey := Keyspace.drop_sessionKey L keyPrefix ks id id'
  by_cases hid : id' = id
  · rw [if_pos hid] at hkey
    rw [if_pos hid, readSession_none hkey]
  · rw [if_neg hid] at hkey
    rw [if_neg hid, readSession_congr hkey]

/-- No deletion makes an expired session. -/
theorem HoldsExpired.of_drop {id id' : CStr}
    (h : HoldsExpired L (ks.drop L keyPrefix id) now (sessionKey keyPrefix id')) :
    HoldsExpired L ks now (sessionKey keyPrefix id') := by
  obtain ⟨s, hread, hs⟩ := h
  rw [readSession_drop] at hread
  split at hread
  · cases hread
  · exact ⟨s, hread, hs⟩

theorem HoldsExpired.drop {id id' : CStr} (hne : id' ≠ id) (h : HoldsExpired L ks now (sessionKey keyPrefix id')) :
    HoldsExpired L (ks.drop L keyPrefix id) now (sessionKey keyPrefix id') := by
  obtain ⟨s, hread, hs⟩ := h
  exact ⟨s, by rw [readSession_drop, if_neg hne, hread], hs⟩

/-- The keyspace once the sessions are deleted, each by its own id. -/
def Keyspace.dropEach (L : Extern) (keyPrefix : CStr) (ks : Keyspace) (sessions : List Session) : Keyspace :=
  (sessions.filterMap (·.id)).foldl (fun ks id => ks.drop L keyPrefix id) ks

theorem total_redisDeleteEach {frames : Nat} {sessions : List Session} {Q : Unit → Keyspace → Prop}
    (hlive : ∀ s ∈ sessions, ∀ id, s.id = some id → ¬ HoldsExpired L ks now (sessionKey keyPrefix id)) :
    Total (Steady now) redisServer (redisDeleteEach (redisDelete L keyPrefix (frames + 1)) sessions) Q ks ↔
      Q () (ks.dropEach L keyPrefix sessions) := by
  induction sessions generalizing ks with
  | nil => exact Iff.rfl
  | cons s rest ih =>
    have hrest : ∀ s' ∈ rest, ∀ id, s'.id = some id → ¬ HoldsExpired L ks now (sessionKey keyPrefix id) :=
      fun s' h => hlive s' (List.mem_cons_of_mem _ h)
    rw [redisDeleteEach, Keyspace.dropEach, List.filterMap_cons]
    cases hid : s.id with
    | none => exact ih hrest
    | some id =>
      simp only [total_bind]
      rw [total_redisDelete_live (hlive s List.mem_cons_self id hid)]
      exact ih fun s' h id' hid' hexp => hrest s' h id' hid' hexp.of_drop

/-- The loop does not return when a key it deletes holds an expired session. -/
theorem redisDeleteEach_live {frames : Nat} {sessions : List Session} {Q : Unit → Keyspace → Prop}
    (h : Total (Steady now) redisServer (redisDeleteEach (redisDelete L keyPrefix frames) sessions) Q ks) :
    ∀ s ∈ sessions, ∀ id, s.id = some id → ¬ HoldsExpired L ks now (sessionKey keyPrefix id) := by
  induction sessions generalizing ks with
  | nil => exact fun s hs => (List.not_mem_nil hs).elim
  | cons s rest ih =>
    rw [redisDeleteEach] at h
    cases hid : s.id with
    | none =>
      simp only [hid] at h
      intro s' hs' id' hid'
      rcases List.mem_cons.mp hs' with rfl | hs'
      · rw [hid] at hid'
        cases hid'
      · exact ih h s' hs' id' hid'
    | some id =>
      simp only [hid, total_bind] at h
      have hlive : ¬ HoldsExpired L ks now (sessionKey keyPrefix id) := fun hexp => redisDelete_diverges hexp frames _ h
      cases frames with
      | zero => exact absurd h (redisDelete_zero L keyPrefix id ks _)
      | succ frames =>
        rw [total_redisDelete_live hlive] at h
        intro s' hs' id' hid' hexp
        rcases List.mem_cons.mp hs' with rfl | hs'
        · cases hid.symm.trans hid'
          exact hlive hexp
        · by_cases hne : id' = id
          · rw [hne] at hexp
            exact hlive hexp
          · exact ih h s' hs' id' hid' (hexp.drop hne)

/-! ### Storing -/

theorem returns_redisTtl {s : Session} {Q : Option Int → Prop} (hQ : ∀ n n', Q (some n) → Q (some n')) :
    Returns (Steady now) (redisTtl s) Q ↔ Q (if s.hasExpires then some 0 else none) := by
  unfold redisTtl
  cases s.hasExpires with
  | false => exact Iff.rfl
  | true =>
    simp only [if_true, returns_bind]
    have hnow := steady_time.mpr (Int.le_refl now)
    constructor
    · intro h
      have hex : Q (some (if s.expiresAt - now ≤ 0 then 1 else s.expiresAt - now)) := h.2 now hnow
      exact hQ _ _ hex
    · refine fun h => ⟨⟨now, hnow⟩, fun r _ => ?_⟩
      show Q (some (if s.expiresAt - r ≤ 0 then 1 else s.expiresAt - r))
      exact hQ _ _ h

theorem Keyspace.sadd_reply {key : CStr} (member : CStr) (h : ks.IsSet key) : (ks.sadd key member).1 = .integer := by
  unfold sadd
  cases hkey : ks key with
  | none => rfl
  | some entry =>
    obtain ⟨value, expires⟩ := entry
    obtain ⟨members, rfl⟩ := h _ hkey
    rfl

theorem Keyspace.IsSet.write {userId : Option CStr} (h : ks.IsSet (userKey keyPrefix userId)) (id : CStr)
    (entry : RedisEntry) :
    Keyspace.IsSet (Function.update ks (sessionKey keyPrefix id) (some entry)) (userKey keyPrefix userId) := by
  intro e he
  rw [Function.update_of_ne (sessionKey_ne_userKey keyPrefix id userId).symm] at he
  exact h e he

/-- Of the time to live the keyspace keeps only that there is one. -/
theorem total_redisWrite {id json : CStr} {s : Session} {ex : Option Int} (hset : ks.IsSet (userKey keyPrefix s.userId))
    {Q : Int → Keyspace → Prop} :
    Total (Steady now) redisServer (redisWrite (sessionKey keyPrefix id) (userKey keyPrefix s.userId) id json ex) Q ks ↔
      Q 0 (Keyspace.sadd (Function.update ks (sessionKey keyPrefix id) (some ⟨.string json, ex.isSome⟩))
        (userKey keyPrefix s.userId) id).2 := by
  rw [redisWrite, total_bind, total_server]
  simp only [Keyspace.answer, RedisReply.reorders_iff (r := .status) (fun xs => by simp), forall_eq, redisFailed,
    Bool.false_eq_true, if_false, total_bind]
  rw [total_server]
  simp only [Keyspace.answer, Keyspace.sadd_reply _ (hset.write id _),
    RedisReply.reorders_iff (r := .integer) (fun xs => by simp), forall_eq, Bool.false_eq_true, if_false, total_pure]

theorem total_redisCreate {s : Session} {id : CStr} (hid : s.id = some id)
    (hset : ks.IsSet (userKey keyPrefix s.userId)) {Q : Int → Keyspace → Prop} :
    Total (Steady now) redisServer (redisCreate L keyPrefix s) Q ks ↔ Q 0 (ks.write L keyPrefix id s) := by
  unfold redisCreate
  simp only [hid, total_bind, redisSessionKey, redisUserKey]
  rw [total_lift, returns_steady, assuming_sessionToJson, returns_pure]
  simp only [total_bind, total_redisKey]
  rw [total_lift]
  simp only [total_redisWrite hset]
  rw [returns_redisTtl fun _ _ h => h]
  unfold Keyspace.write
  cases s.hasExpires <;> exact Iff.rfl

theorem Keyspace.write_sessionKey (L : Extern) (keyPrefix : CStr) (ks : Keyspace) (id id' : CStr) (s : Session) :
    ks.write L keyPrefix id s (sessionKey keyPrefix id') =
      if id' = id then some ⟨.string (L.printUnformatted (.obj (sessionFields L s))), s.hasExpires⟩
      else ks (sessionKey keyPrefix id') := by
  unfold write
  refine (Keyspace.sadd_other _ id (sessionKey_ne_userKey keyPrefix id' s.userId)).trans ?_
  simp only [Function.update_apply, sessionKey_inj]

/-- The session as it is read back. -/
def Session.recoded (L : Extern) (s : Session) : Option Session :=
  storedSession L (L.printUnformatted (.obj (sessionFields L s)))

theorem readSession_write (id id' : CStr) (s : Session) :
    readSession L (ks.write L keyPrefix id s) (sessionKey keyPrefix id') =
      if id' = id then s.recoded L else readSession L ks (sessionKey keyPrefix id') := by
  have hkey := Keyspace.write_sessionKey L keyPrefix ks id id' s
  by_cases hid : id' = id
  · rw [if_pos hid] at hkey
    rw [if_pos hid]
    unfold readSession Keyspace.get
    rw [hkey]
    rfl
  · rw [if_neg hid] at hkey
    rw [if_neg hid, readSession_congr hkey]

theorem Keyspace.members_sadd {key : CStr} (member : CStr) (h : ks.IsSet key) :
    Keyspace.members (ks.sadd key member).2 key =
      if member ∈ ks.members key then ks.members key else ks.members key ++ [member] := by
  unfold sadd
  cases hkey : ks key with
  | none =>
    have hmembers : ks.members key = [] := by
      unfold members
      rw [hkey]
    rw [hmembers, if_neg List.not_mem_nil]
    unfold members
    simp only [Function.update_self, List.nil_append]
  | some entry =>
    obtain ⟨value, expires⟩ := entry
    obtain ⟨members, rfl⟩ := h _ hkey
    have hmembers : ks.members key = members := by
      unfold Keyspace.members
      rw [hkey]
    rw [hmembers]
    unfold Keyspace.members
    simp only [Function.update_self]

theorem Keyspace.members_congr {ks' : Keyspace} {key : CStr} (h : ks key = ks' key) :
    ks.members key = ks'.members key := by
  unfold members
  rw [h]

theorem Keyspace.members_write {s : Session} (hset : ks.IsSet (userKey keyPrefix s.userId)) (id : CStr) :
    (ks.write L keyPrefix id s).members (userKey keyPrefix s.userId) =
      if id ∈ ks.members (userKey keyPrefix s.userId) then ks.members (userKey keyPrefix s.userId)
      else ks.members (userKey keyPrefix s.userId) ++ [id] := by
  unfold write
  rw [Keyspace.members_sadd id (hset.write id _)]
  rw [Keyspace.members_congr (Function.update_of_ne (sessionKey_ne_userKey keyPrefix id s.userId).symm _ ks)]

end

end OpenDbsc
