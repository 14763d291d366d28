/-
The status of every reply.

The event handler sends the response whatever the manager returned. Register
and refresh return -1, with the response blank, exactly when the renewal fails
inside (`FailsAsRenewal`): its challenge finds no memory, or the store does not
take the session. So a request that is served gets a real status exactly when
that does not happen, or the reply itself cannot be put together
(`Served.real_iff`).
-/
import OpenDbsc.Effects.Over
import OpenDbsc.Http
import OpenDbsc.ManagerWrites

namespace OpenDbsc

open Effects Prog

/-! ## Renewals that fail -/

/-- The bytes of a challenge are drawn, or cannot be, and its text finds no memory. -/
def DrawFails (tr : List (Event (Sys.sum StoreSig))) : Prop :=
  ∃ bytes n, [⟨.inl (.getentropy 32), bytes⟩, ⟨.inl (.malloc n), false⟩] <:+: tr

/-- The store answers an update with an error. -/
def UpdateFails (tr : List (Event (Sys.sum StoreSig))) : Prop := ∃ s code, answered (.update s) code ∈ tr ∧ code ≠ 0

def RenewalFails (tr : List (Event (Sys.sum StoreSig))) : Prop := DrawFails tr ∨ UpdateFails tr

/-- Neither draws a challenge nor writes a session back. -/
def Inert : (Sys.sum StoreSig).Op → Prop
  | .inl (.getentropy n) => n ≠ 32
  | .inr (.update _) => False
  | _ => True

section

variable {e : Event (Sys.sum StoreSig)} {tr tr₁ tr₂ : List (Event (Sys.sum StoreSig))}

theorem not_renewalFails_nil : ¬ RenewalFails [] := by
  rintro (⟨_, _, h⟩ | ⟨_, _, h, -⟩)
  · exact List.cons_ne_nil _ _ (List.infix_nil.mp h)
  · exact List.not_mem_nil h

theorem drawFails_cons (h : ∀ bytes, e ≠ ⟨.inl (.getentropy 32), bytes⟩) : DrawFails (e :: tr) ↔ DrawFails tr := by
  unfold DrawFails
  constructor
  · rintro ⟨bytes, n, hinfix⟩
    rcases List.infix_cons_iff.mp hinfix with hprefix | hinfix
    · exact absurd (List.cons_prefix_cons.mp hprefix).1.symm (h bytes)
    · exact ⟨bytes, n, hinfix⟩
  · rintro ⟨bytes, n, hinfix⟩
    exact ⟨bytes, n, List.infix_cons_iff.mpr (.inr hinfix)⟩

theorem renewalFails_cons (h : Inert e.op) : RenewalFails (e :: tr) ↔ RenewalFails tr := by
  have hdraw : DrawFails (e :: tr) ↔ DrawFails tr := by
    refine drawFails_cons fun bytes he => ?_
    rw [he] at h
    exact h rfl
  have hupdate : UpdateFails (e :: tr) ↔ UpdateFails tr := by
    unfold UpdateFails
    constructor
    · rintro ⟨s, code, hmem, hcode⟩
      rcases List.mem_cons.mp hmem with rfl | hmem
      · exact h.elim
      · exact ⟨s, code, hmem, hcode⟩
    · rintro ⟨s, code, hmem, hcode⟩
      exact ⟨s, code, List.mem_cons_of_mem _ hmem, hcode⟩
  rw [RenewalFails, RenewalFails, hdraw, hupdate]

theorem renewalFails_append (h : ∀ e ∈ tr₁, Inert e.op) : RenewalFails (tr₁ ++ tr₂) ↔ RenewalFails tr₂ := by
  induction tr₁ with
  | nil => rfl
  | cons e tr₁ ih =>
    rw [List.cons_append, renewalFails_cons (h e List.mem_cons_self)]
    exact ih fun e he => h e (List.mem_cons_of_mem _ he)

theorem not_renewalFails (h : ∀ e ∈ tr, Inert e.op) : ¬ RenewalFails tr := by
  rw [← List.append_nil tr, renewalFails_append h]
  exact not_renewalFails_nil

/-- A draw, and the allocation of its text. -/
theorem renewalFails_draw {bytes : Option { b : List UInt8 // b.length = 32 }} {n : Nat} {b : Bool} :
    RenewalFails (⟨.inl (.getentropy 32), bytes⟩ :: ⟨.inl (.malloc n), b⟩ :: tr) ↔ b = false ∨ RenewalFails tr := by
  cases b with
  | false => exact iff_of_true (.inl ⟨bytes, n, List.infix_cons_iff.mpr (.inl (by simp))⟩) (.inl rfl)
  | true =>
    have hskip : RenewalFails (⟨.inl (.malloc n), true⟩ :: tr) ↔ RenewalFails tr := renewalFails_cons trivial
    rw [← hskip]
    constructor
    · rintro (⟨bytes', n', hinfix⟩ | ⟨s, code, hmem, hcode⟩)
      · rcases List.infix_cons_iff.mp hinfix with hprefix | hinfix
        · have hnext := (List.cons_prefix_cons.mp (List.cons_prefix_cons.mp hprefix).2).1
          cases hnext
        · exact .inr (.inl ⟨bytes', n', hinfix⟩)
      · rcases List.mem_cons.mp hmem with heq | hmem
        · cases heq
        · exact .inr (.inr ⟨s, code, hmem, hcode⟩)
    · rintro (hb | ⟨bytes', n', hinfix⟩ | ⟨s, code, hmem, hcode⟩)
      · cases hb
      · exact .inl ⟨bytes', n', List.infix_cons_iff.mpr (.inr hinfix)⟩
      · exact .inr ⟨s, code, List.mem_cons_of_mem _ hmem, hcode⟩

theorem renewalFails_update {s : Session} {code : Int} (h : ∀ e ∈ tr, Inert e.op) :
    RenewalFails (answered (.update s) code :: tr) ↔ code ≠ 0 := by
  constructor
  · rintro (hdraw | ⟨s', code', hmem, hcode⟩)
    · have hne : ∀ bytes, answered (.update s) code ≠ ⟨.inl (.getentropy 32), bytes⟩ := fun _ he => by cases he
      rw [drawFails_cons hne] at hdraw
      exact absurd (.inl hdraw) (not_renewalFails h)
    · rcases List.mem_cons.mp hmem with heq | hmem
      · cases heq
        exact hcode
      · exact absurd (.inr ⟨s', code', hmem, hcode⟩) (not_renewalFails h)
  · exact fun hcode => .inr ⟨s, code, List.mem_cons_self, hcode⟩

end

/-! ## What does not renew -/

section

variable {α : Type}

theorem AllOps.inert {p : Prog Sys α} (h : AllOps (fun o => Inert (.inl o)) p) {tr a} (ht : Trace (sys p) tr a) :
    ∀ e ∈ tr, Inert e.op :=
  (AllOps.lift h).trace ht

theorem OnlyAllocates.inert {p : Prog Sys α} (h : OnlyAllocates p) : AllOps (fun o => Inert (.inl o)) p :=
  h.mono fun o ho => by
    cases o with
    | getentropy n => exact absurd rfl ho
    | _ => trivial

theorem inert_emitEvent (cfg : ManagerConfig) (type : CStr) (user sessionId detail : Option CStr) :
    AllOps (fun o => Inert (.inl o)) (emitEvent cfg type user sessionId detail) := by
  unfold emitEvent
  split
  · exact allOps_perform (S := Sys) (o := .onEvent type user sessionId detail) trivial
  · exact allOps_pure _

theorem inert_applySessionTtl (s : Session) (ttlSeconds : Int) :
    AllOps (fun o => Inert (.inl o)) (applySessionTtl s ttlSeconds) := by
  unfold applySessionTtl
  split
  · exact (allOps_perform (S := Sys) (o := .time) trivial).bind fun _ => allOps_pure _
  · exact allOps_pure _

theorem inert_challengeMatches (proof : ProofJWT) (s : Session) :
    AllOps (fun o => Inert (.inl o)) (challengeMatches proof s) := by
  unfold challengeMatches
  split
  · exact allOps_pure _
  · exact ⟨trivial, nofun⟩
  · exact allOps_pure _

end

/-! ## The manager's part -/

/-- The program fails exactly when a renewal does, in whatever follows it as well. -/
def FailsAsRenewal (p : Request (Int × ManagerResponse)) : Prop :=
  ∀ tr r, Trace p tr r → ∀ tr', (∀ e ∈ tr', Inert e.op) → (r.1 ≠ 0 ↔ RenewalFails (tr ++ tr'))

section

variable {α : Type} {L : Extern} {cfg : ManagerConfig}

theorem failsAsRenewal_sys {p : Prog Sys (Int × ManagerResponse)} (hp : OnlyAllocates p)
    (hzero : Ensures p fun r => r.1 = 0) : FailsAsRenewal (sys p) := by
  intro tr r ht tr' hinert
  refine iff_of_false (fun hne => hne (Ensures.sys hzero tr r ht)) ?_
  rw [renewalFails_append (AllOps.inert hp.inert ht)]
  exact not_renewalFails hinert

theorem FailsAsRenewal.bind {p : Request α} {f : α → Request (Int × ManagerResponse)} (hp : AllOps Inert p)
    (hf : ∀ a, FailsAsRenewal (f a)) : FailsAsRenewal (p >>= f) := by
  intro tr r ht tr' hinert
  obtain ⟨tr₁, a, tr₂, rfl, h₁, h₂⟩ := trace_bind.mp ht
  rw [List.append_assoc, renewalFails_append (hp.trace h₁)]
  exact hf a tr₂ r h₂ tr' hinert

theorem FailsAsRenewal.bind_sys {p : Prog Sys α} {f : α → Request (Int × ManagerResponse)}
    (hp : AllOps (fun o => Inert (.inl o)) p) (hf : ∀ a, FailsAsRenewal (f a)) : FailsAsRenewal (sys p >>= f) :=
  FailsAsRenewal.bind (AllOps.lift hp) hf

theorem failsAsRenewal_refuse (statusCode : Int) (text : CStr) : FailsAsRenewal (sys (refuse statusCode text)) :=
  failsAsRenewal_sys (onlyAllocates_refuse _ _) fun tr r ht => (ensures_refuse statusCode text tr r ht).1

theorem failsAsRenewal_challengeAgain (s : Session) : FailsAsRenewal (sys (challengeAgain s)) :=
  failsAsRenewal_sys (onlyAllocates_challengeAgain s) fun tr r ht => (ensures_challengeAgain s tr r ht).1

theorem failsAsRenewal_renewSession (type detail : CStr) (s : Session) :
    FailsAsRenewal (renewSession L cfg type detail s) := by
  intro tr r ht tr' hinert
  obtain ⟨tr₁, challenge, tr₂, rfl, h₁, h₂⟩ := trace_bind.mp ht
  obtain ⟨trDraw, rfl, hdraw⟩ := trace_lift.mp h₁
  obtain ⟨bytes, n, b, rfl, rfl⟩ := trace_managerGenerateChallenge hdraw
  have hsplit : RenewalFails ([⟨.getentropy 32, bytes⟩, ⟨.malloc n, b⟩].map (Event.inl (S := Sys) (T := StoreSig)) ++
      (tr₂ ++ tr')) ↔ b = false ∨ RenewalFails (tr₂ ++ tr') := renewalFails_draw
  rw [List.append_assoc, hsplit]
  cases b with
  | false =>
    obtain ⟨rfl, rfl⟩ := trace_pure.mp h₂
    exact iff_of_true (by decide) (.inl rfl)
  | true =>
    rw [or_iff_right (Bool.true_eq_false_eq_False)]
    -- what comes before the update is inert, and so is what comes after it
    have hrest : ∀ s₁ : Session, FailsAsRenewal (do
        let s₂ ← sys (applySessionTtl s₁ cfg.sessionTtlSeconds)
        if (← storeUpdate s₂) ≠ 0 then return (-1, managerResponseInit)
        sys (emitEvent cfg type s₂.userId s₂.id (some detail))
        sys (acceptedResponse L cfg s₂)) := by
      intro s₁
      refine FailsAsRenewal.bind_sys (inert_applySessionTtl _ _) fun s₂ => ?_
      intro tr r ht tr' hinert
      obtain ⟨tr₁, code, tr₂, rfl, h₁, h₂⟩ := trace_bind.mp ht
      obtain rfl := trace_call.mp h₁
      by_cases hcode : code = 0
      · rw [if_neg (not_not.mpr hcode)] at h₂
        have hafter : AllOps Inert (sys (emitEvent cfg type s₂.userId s₂.id (some detail)) >>= fun _ =>
            sys (acceptedResponse L cfg s₂)) :=
          (AllOps.lift (inert_emitEvent ..)).bind fun _ => AllOps.lift (onlyAllocates_acceptedResponse ..).inert
        have hzero : r.1 = 0 := by
          obtain ⟨tr₃, _, tr₄, rfl, -, h₄⟩ := trace_bind.mp h₂
          exact (Ensures.sys (ensures_acceptedResponse L cfg s₂) tr₄ r h₄).1
        rw [List.singleton_append, List.cons_append, renewalFails_update]
        · exact iff_of_false (fun hne => hne hzero) (not_not.mpr hcode)
        · exact fun e he => (List.mem_append.mp he).elim (hafter.trace h₂ e) (hinert e)
      · rw [if_pos hcode] at h₂
        obtain ⟨rfl, rfl⟩ := trace_pure.mp h₂
        rw [List.singleton_append, List.cons_append, List.nil_append, renewalFails_update hinert]
        exact iff_of_true (by decide) hcode
    exact FailsAsRenewal.bind_sys onlyAllocates_setField.inert (fun (_, s₁) => hrest s₁) tr₂ r h₂ tr' hinert

theorem inert_storeGet (id : CStr) : AllOps Inert (storeGet id) :=
  allOps_perform (S := Sys.sum StoreSig) (o := .inr (.get (some id))) trivial

theorem failsAsRenewal_register (id header : Option CStr) : FailsAsRenewal (managerRegister L cfg id header) := by
  unfold managerRegister
  cases nonEmpty id with
  | none => exact failsAsRenewal_refuse _ _
  | some id =>
    refine FailsAsRenewal.bind (inert_storeGet id) fun out => ?_
    cases out with
    | none => exact failsAsRenewal_refuse _ _
    | some s =>
      simp only
      split
      · exact failsAsRenewal_refuse _ _
      cases nonEmpty header with
      | none => exact failsAsRenewal_challengeAgain s
      | some token =>
        refine FailsAsRenewal.bind_sys (onlyAllocates_jwtDecodeAndVerify L token _).inert fun (rc, proof) => ?_
        simp only
        split
        · exact failsAsRenewal_challengeAgain s
        refine FailsAsRenewal.bind_sys (inert_challengeMatches proof s) fun same => ?_
        split
        · exact failsAsRenewal_challengeAgain s
        split
        · exact failsAsRenewal_challengeAgain s
        refine FailsAsRenewal.bind_sys onlyAllocates_setField.inert fun (_, s₁) => ?_
        exact FailsAsRenewal.bind_sys onlyAllocates_setField.inert fun (_, s₂) => failsAsRenewal_renewSession _ _ s₂

theorem failsAsRenewal_refresh (id header : Option CStr) : FailsAsRenewal (managerRefresh L cfg id header) := by
  unfold managerRefresh
  cases nonEmpty id with
  | none => exact failsAsRenewal_refuse _ _
  | some id =>
    refine FailsAsRenewal.bind (inert_storeGet id) fun out => ?_
    cases out with
    | none => exact failsAsRenewal_refuse _ _
    | some s =>
      simp only
      split
      · exact failsAsRenewal_refuse _ _
      cases nonEmpty header with
      | none => exact failsAsRenewal_challengeAgain s
      | some token =>
        cases s.publicKey with
        | none => exact failsAsRenewal_challengeAgain s
        | some key =>
          refine FailsAsRenewal.bind_sys (onlyAllocates_jwtVerifyWithJwk L token key _).inert fun (rc, proof) => ?_
          simp only
          split
          · exact failsAsRenewal_challengeAgain s
          refine FailsAsRenewal.bind_sys (inert_challengeMatches proof s) fun same => ?_
          split
          · exact failsAsRenewal_challengeAgain s
          · exact failsAsRenewal_renewSession _ _ s

end

/-! ## The handler's part -/

/-- Reads headers and answers nothing. -/
def Quiet : ((Sys.sum StoreSig).sum HttpSig).Op → Prop
  | .inl o => Inert o
  | .inr (.reply ..) => False
  | .inr _ => True

section

variable {α : Type}

theorem AllOps.quiet {p : Prog Sys α} (h : AllOps (fun o => Inert (.inl o)) p) : AllOps Quiet (runtime p) :=
  AllOps.lift (AllOps.lift h)

theorem onlyAllocates_mgStrDup (str : Option (List Char)) : OnlyAllocates (mgStrDup str) := by
  unfold mgStrDup
  split
  · exact onlyAllocates_pure _
  · exact onlyAllocates_pure _
  · refine (onlyAllocates_malloc _).bind fun b => ?_
    split <;> exact onlyAllocates_pure _

theorem onlyAllocates_stripQuotes (s : Option CStr) : OnlyAllocates (stripQuotes s) := by
  unfold stripQuotes
  split
  · exact onlyAllocates_pure _
  · split
    · refine (onlyAllocates_malloc _).bind fun b => ?_
      split <;> exact onlyAllocates_pure _
    · exact onlyAllocates_strdup _

theorem onlyAllocates_httpGetCookie (hm : HttpMessage) (name : Option CStr) :
    OnlyAllocates (httpGetCookie hm name) := by
  unfold httpGetCookie
  split
  · split
    · exact onlyAllocates_pure _
    · refine (onlyAllocates_malloc _).bind fun b => ?_
      split <;> exact onlyAllocates_pure _
  · exact onlyAllocates_pure _

theorem onlyAllocates_unquotedHeader (hm : HttpMessage) (name : CStr) : OnlyAllocates (unquotedHeader hm name) :=
  (onlyAllocates_mgStrDup _).bind fun raw => onlyAllocates_stripQuotes raw

theorem onlyAllocates_sessionIdOf (cfg : ManagerConfig) (hm : HttpMessage) : OnlyAllocates (sessionIdOf cfg hm) := by
  refine (onlyAllocates_unquotedHeader hm _).bind fun sessionId => ?_
  cases sessionId with
  | some sessionId => exact onlyAllocates_pure _
  | none => exact onlyAllocates_httpGetCookie hm _

theorem onlyAllocates_skippedParameters (turns : Nat) (p : CStr) (sessionId : Option CStr) :
    OnlyAllocates (skippedParameters turns p sessionId) := by
  induction turns generalizing p sessionId with
  | zero => exact onlyAllocates_pure _
  | succ turns ih =>
    by_cases hp : ∃ q, p = ';' :: q
    · obtain ⟨q, rfl⟩ := hp
      rw [skippedParameters]
      split
      · exact onlyAllocates_pure _
      · split
        · refine (onlyAllocates_malloc _).bind fun b => ?_
          split
          · exact onlyAllocates_pure _
          · exact ih _ _
        · exact ih _ _
    · rw [skippedParameters_of_ne fun q hq => hp ⟨q, hq⟩]
      exact onlyAllocates_pure _

theorem onlyAllocates_skippedEntries (turns : Nat) (p : CStr) (entries : List SkippedEntry) (capacity : Nat) :
    OnlyAllocates (skippedEntries turns p entries capacity) := by
  induction turns generalizing p entries capacity with
  | zero => exact onlyAllocates_pure _
  | succ turns ih =>
    unfold skippedEntries
    split
    · exact onlyAllocates_pure _
    · dsimp only
      split
      · exact onlyAllocates_pure _
      · refine (onlyAllocates_skippedParameters _ _ _).bind fun out => ?_
        cases out with
        | none => exact onlyAllocates_pure _
        | some out =>
          dsimp only
          split
          · refine (onlyAllocates_growArray ..).bind fun capacity => ?_
            cases capacity with
            | none => exact onlyAllocates_pure _
            | some capacity =>
              refine (onlyAllocates_malloc _).bind fun b => ?_
              split
              · exact onlyAllocates_pure _
              · exact ih _ _ _
          · exact ih _ _ _

theorem inert_emitSkipped (cfg : ManagerConfig) (entries : List SkippedEntry) :
    AllOps (fun o => Inert (.inl o)) (emitSkipped cfg entries) := by
  induction entries with
  | nil => exact allOps_pure _
  | cons entry rest ih => exact (inert_emitEvent ..).bind fun _ => ih

theorem inert_handleSessionSkipped (cfg : ManagerConfig) (hm : HttpMessage) :
    AllOps (fun o => Inert (.inl o)) (handleSessionSkipped cfg hm) := by
  refine (onlyAllocates_mgStrDup _).inert.bind fun value => ?_
  cases value with
  | none => exact allOps_pure _
  | some value =>
    refine (onlyAllocates_skippedEntries _ _ _ _).inert.bind fun entries => ?_
    cases entries with
    | none => exact allOps_pure _
    | some entries => exact inert_emitSkipped cfg entries

end

/-! ## Replies -/

abbrev HttpEvent := Event ((Sys.sum StoreSig).sum HttpSig)

def sentReply (statusCode : Int) (headers body : CStr) : HttpEvent := ⟨.inr (.reply statusCode headers body), ()⟩

/-- The status reaches `mg_http_reply`. -/
def Replies (tr : List HttpEvent) (statusCode : Int) : Prop := ∃ headers body, sentReply statusCode headers body ∈ tr

def RealStatus (statusCode : Int) : Prop :=
  statusCode = 200 ∨ statusCode = 400 ∨ statusCode = 401 ∨ statusCode = 403 ∨ statusCode = 500

/-- No route handles the request. -/
def Unrouted (tr : List HttpEvent) : Prop :=
  ∀ method uri body bodyLen x, (⟨.inr (.route method uri body bodyLen), x⟩ : HttpEvent) ∈ tr → x.1 ≠ 0

def allocated (n : Nat) (b : Bool) : HttpEvent := ⟨.inl (.inl (.malloc n)), b⟩

/-- The reply's two buffers, for headers that need 256 bytes and 33, are there. -/
def Assembled (tr : List HttpEvent) : Prop := ∃ e, [allocated 256 true, allocated 33 true, e] <:+ tr

theorem replies_append {tr₁ tr₂ : List HttpEvent} (h : ∀ status headers body, sentReply status headers body ∉ tr₁)
    {status : Int} : Replies (tr₁ ++ tr₂) status ↔ Replies tr₂ status := by
  constructor
  · rintro ⟨headers, body, hmem⟩
    rcases List.mem_append.mp hmem with hmem | hmem
    · exact absurd hmem (h status headers body)
    · exact ⟨headers, body, hmem⟩
  · rintro ⟨headers, body, hmem⟩
    exact ⟨headers, body, List.mem_append_right _ hmem⟩

theorem replies_quiet {tr₁ tr₂ : List HttpEvent} (h : ∀ e ∈ tr₁, Quiet e.op) {status : Int} :
    Replies (tr₁ ++ tr₂) status ↔ Replies tr₂ status :=
  replies_append fun _ _ _ hmem => h _ hmem

theorem replies_lift {tr₁ : List (Event (Sys.sum StoreSig))} {tr₂ : List HttpEvent} {status : Int} :
    Replies (tr₁.map Event.inl ++ tr₂) status ↔ Replies tr₂ status := by
  refine replies_append fun _ _ _ hmem => ?_
  obtain ⟨e, -, he⟩ := List.mem_map.mp hmem
  cases he

theorem replies_sentReply {status status' : Int} {headers body : CStr} :
    Replies [sentReply status' headers body] status ↔ status = status' := by
  constructor
  · rintro ⟨_, _, hmem⟩
    cases List.mem_singleton.mp hmem
    rfl
  · rintro rfl
    exact ⟨headers, body, List.mem_singleton_self _⟩

theorem trace_mgHttpReply {status : Int} {headers body : CStr} {tr : List HttpEvent} {u : Unit}
    (h : Trace (mgHttpReply status headers body) tr u) : tr = [sentReply status headers body] :=
  (trace_perform (S := (Sys.sum StoreSig).sum HttpSig) (o := .inr (.reply status headers body))).mp h

theorem onlyAllocates_appendHeader (name : CStr) (value : Option CStr) (headers : CStr) (size : Nat) :
    OnlyAllocates (appendHeader name value headers size) := by
  unfold appendHeader
  cases value with
  | none => exact onlyAllocates_pure _
  | some value =>
    dsimp only
    split
    · refine (onlyAllocates_malloc _).bind fun b => ?_
      split <;> exact onlyAllocates_pure _
    · exact onlyAllocates_pure _

theorem onlyAllocates_responseHeaders (resp : ManagerResponse) : OnlyAllocates (responseHeaders resp) := by
  refine (onlyAllocates_malloc _).bind fun b => ?_
  split
  · exact onlyAllocates_pure _
  refine (onlyAllocates_appendHeader ..).bind fun out => ?_
  cases out with
  | none => exact onlyAllocates_pure _
  | some out =>
    refine (onlyAllocates_appendHeader ..).bind fun out => ?_
    cases out with
    | none => exact onlyAllocates_pure _
    | some out =>
      refine (onlyAllocates_appendHeader ..).bind fun out => ?_
      cases out with
      | none => exact onlyAllocates_pure _
      | some out =>
        refine (onlyAllocates_malloc _).bind fun b => ?_
        split <;> exact onlyAllocates_pure _

/-- A response is sent with its own status, or with 500. -/
theorem trace_sendResponse {resp : ManagerResponse} {tr : List HttpEvent} {u : Unit}
    (h : Trace (sendResponse resp) tr u) :
    ∃ tr₁ status headers body, tr = tr₁ ++ [sentReply status headers body] ∧ (∀ e ∈ tr₁, Quiet e.op) ∧
      (status = resp.statusCode ∨ status = 500) := by
  obtain ⟨tr₁, out, tr₂, rfl, h₁, h₂⟩ := trace_bind.mp h
  have hquiet := (AllOps.quiet (onlyAllocates_responseHeaders resp).inert).trace h₁
  cases out with
  | none => exact ⟨tr₁, _, _, _, by rw [trace_mgHttpReply h₂], hquiet, .inr rfl⟩
  | some headers => exact ⟨tr₁, _, _, _, by rw [trace_mgHttpReply h₂], hquiet, .inl rfl⟩

/-- The headers of the blank response, in two buffers. -/
theorem trace_responseHeaders_init {tr : List (Event Sys)} {out : Option CStr}
    (h : Trace (responseHeaders managerResponseInit) tr out) :
    (tr = [⟨.malloc 256, false⟩] ∧ out = none) ∨ (tr = [⟨.malloc 256, true⟩, ⟨.malloc 33, false⟩] ∧ out = none) ∨
      (tr = [⟨.malloc 256, true⟩, ⟨.malloc 33, true⟩] ∧ out ≠ none) := by
  obtain ⟨tr₁, b, tr₂, rfl, h₁, h₂⟩ := trace_bind.mp h
  rw [(trace_perform (S := Sys) (o := .malloc 256)).mp h₁]
  cases b with
  | false =>
    obtain ⟨rfl, rfl⟩ := trace_pure.mp h₂
    exact .inl ⟨rfl, rfl⟩
  | true =>
    obtain ⟨tr₃, b, tr₄, rfl, h₃, h₄⟩ := (trace_bind (p := malloc 33)).mp h₂
    rw [(trace_perform (S := Sys) (o := .malloc 33)).mp h₃]
    cases b with
    | false =>
      obtain ⟨rfl, rfl⟩ := trace_pure.mp h₄
      exact .inr (.inl ⟨rfl, rfl⟩)
    | true =>
      obtain ⟨rfl, rfl⟩ := trace_pure.mp h₄
      exact .inr (.inr ⟨rfl, Option.some_ne_none _⟩)

/-- Not when an allocation failed right before the reply. -/
theorem not_assembled {tr : List HttpEvent} {n : Nat} {e : HttpEvent} (h : [allocated n false, e] <:+ tr) :
    ¬ Assembled tr := by
  rintro ⟨e', hassembled⟩
  have hlast : [allocated 33 true, e'] <:+ tr := (List.suffix_cons _ _).trans hassembled
  have heq := List.IsSuffix.eq_of_length (List.suffix_of_suffix_length_le hlast h (by simp)) rfl
  cases heq

/-- The blank response is sent with its 0 when its headers are put together, else with 500. -/
theorem trace_sendResponse_init (tr₁ : List HttpEvent) {tr₂ : List HttpEvent} {u : Unit}
    (h : Trace (sendResponse managerResponseInit) tr₂ u) :
    (Assembled (tr₁ ++ tr₂) ∧ Replies tr₂ 0) ∨
      (¬ Assembled (tr₁ ++ tr₂) ∧ ∀ status, Replies tr₂ status → status = 500) := by
  obtain ⟨tr₃, out, tr₄, rfl, h₃, h₄⟩ := trace_bind.mp h
  have hquiet := (AllOps.quiet (onlyAllocates_responseHeaders managerResponseInit).inert).trace h₃
  obtain ⟨tr₅, rfl, h₅⟩ := trace_lift.mp h₃
  obtain ⟨tr₆, rfl, h₆⟩ := trace_lift.mp h₅
  rcases trace_responseHeaders_init h₆ with ⟨rfl, rfl⟩ | ⟨rfl, rfl⟩ | ⟨rfl, hout⟩
  · obtain rfl := trace_mgHttpReply h₄
    exact .inr ⟨not_assembled ⟨tr₁, rfl⟩, fun status hreply => replies_sentReply.mp ((replies_quiet hquiet).mp hreply)⟩
  · obtain rfl := trace_mgHttpReply h₄
    refine .inr ⟨not_assembled ⟨tr₁ ++ [allocated 256 true], List.append_assoc ..⟩, fun status hreply => ?_⟩
    exact replies_sentReply.mp ((replies_quiet hquiet).mp hreply)
  · cases out with
    | none => exact absurd rfl hout
    | some headers =>
      obtain rfl := trace_mgHttpReply h₄
      exact .inl ⟨⟨_, tr₁, rfl⟩, (replies_quiet hquiet).mpr (replies_sentReply.mpr rfl)⟩

/-! ## The endpoints -/

/-- How a register or refresh request ends: a 500 at once, or the manager's
part and its response sent. -/
inductive Served : List HttpEvent → Prop
  | failed (headers body : CStr) : Served [sentReply 500 headers body]
  | manager {tr₁ tr₂ r u} (hr : Answered r)
      (hfails : ∀ tr', (∀ e ∈ tr', Inert e.op) → (r.1 ≠ 0 ↔ RenewalFails (tr₁ ++ tr')))
      (hsend : Trace (sendResponse r.2) tr₂ u) : Served (tr₁.map Event.inl ++ tr₂)
  | quiet {tr₁ tr₂} (h : ∀ e ∈ tr₁, Quiet e.op) (hserved : Served tr₂) : Served (tr₁ ++ tr₂)

/-- A program that serves the request when no route does. -/
def Serves {α : Type} (p : HttpProg α) : Prop := ∀ tr a, Trace p tr a → Unrouted tr → Served tr

section

variable {L : Extern} {α β : Type}

theorem Serves.bind {p : HttpProg α} {Q : α → Prop} {f : α → HttpProg β} (hp : AllOps Quiet p) (hQ : Ensures p Q)
    (hf : ∀ a, Q a → Serves (f a)) : Serves (p >>= f) := by
  intro tr b ht hroute
  obtain ⟨tr₁, a, tr₂, rfl, h₁, h₂⟩ := trace_bind.mp ht
  refine .quiet (hp.trace h₁) (hf a (hQ tr₁ a h₁) tr₂ b h₂ ?_)
  exact fun method uri body bodyLen x hx => hroute method uri body bodyLen x (List.mem_append_right _ hx)

theorem Serves.bind_any {p : Prog Sys α} {f : α → HttpProg β} (hp : AllOps (fun o => Inert (.inl o)) p)
    (hf : ∀ a, Serves (f a)) : Serves (runtime p >>= f) :=
  Serves.bind (AllOps.quiet hp) (fun _ _ _ => trivial) fun a (_ : True) => hf a

theorem serves_internalServerError : Serves internalServerError := by
  intro tr u ht _
  rw [trace_mgHttpReply ht]
  exact .failed _ _

theorem serves_manager {p : Request (Int × ManagerResponse)} (hp : Ensures p Answered) (hfails : FailsAsRenewal p) :
    Serves (do let (_, resp) ← p.lift; sendResponse resp) := by
  intro tr u ht _
  obtain ⟨tr₁, r, tr₂, rfl, h₁, h₂⟩ := trace_bind.mp ht
  obtain ⟨tr₃, rfl, h₃⟩ := trace_lift.mp h₁
  exact .manager (hp tr₃ r h₃) (hfails tr₃ r h₃) h₂

theorem serves_register (cfg : ManagerConfig) (hm : HttpMessage) : Serves (handleRegister L cfg hm) :=
  Serves.bind_any (onlyAllocates_httpGetCookie ..).inert fun cookie =>
    Serves.bind_any (onlyAllocates_unquotedHeader ..).inert fun proof =>
      serves_manager (ensures_register cookie proof) (failsAsRenewal_register cookie proof)

theorem serves_refresh (cfg : ManagerConfig) (hm : HttpMessage) : Serves (handleRefresh L cfg hm) :=
  Serves.bind_any (onlyAllocates_sessionIdOf ..).inert fun sessionId =>
    Serves.bind_any (onlyAllocates_unquotedHeader ..).inert fun proof =>
      serves_manager (ensures_refresh sessionId proof) (failsAsRenewal_refresh sessionId proof)

theorem ensures_mgStrDup (bytes : List Char) :
    Ensures (mgStrDup (some bytes)) fun out => ∀ s, out = some s → s = untilNul bytes := by
  unfold mgStrDup
  split
  · exact Ensures.pure nofun
  · exact Ensures.pure nofun
  · rename_i bytes' heq
    cases heq
    refine Ensures.bind_any fun b => ?_
    split
    · refine Ensures.pure fun s hs => ?_
      cases hs
      rfl
    · exact Ensures.pure nofun

theorem Serves.bind_dup {bytes : List Char} {f : Option CStr → HttpProg β}
    (hf : ∀ out, (∀ s, out = some s → s = untilNul bytes) → Serves (f out)) :
    Serves (runtime (mgStrDup (some bytes)) >>= f) :=
  Serves.bind (AllOps.quiet (onlyAllocates_mgStrDup _).inert) (Ensures.lift (Ensures.lift (ensures_mgStrDup bytes))) hf

theorem serves_default (server : HttpServer) (hm : HttpMessage) {uri : CStr} (resp : ManagerResponse)
    (huri : uri = "/dbsc/register" ∨ uri = "/dbsc/refresh") : Serves (defaultEndpoint L server hm "POST" uri resp) := by
  rcases huri with rfl | rfl
  · exact serves_register server.cfg hm
  · exact serves_refresh server.cfg hm

/-- A route that is asked does not handle the request. -/
theorem serves_route {server : HttpServer} {method uri : CStr} {body : Option CStr} {bodyLen : Nat}
    {f : Int × ManagerResponse → HttpProg β} (hf : ∀ r, r.1 ≠ 0 → Serves (f r)) :
    Serves ((if server.route then call (T := HttpSig) (.route method uri body bodyLen)
      else pure (-1, managerResponseInit)) >>= f) := by
  intro tr b ht hroute
  split at ht
  · obtain ⟨tr₁, r, tr₂, rfl, h₁, h₂⟩ := trace_bind.mp ht
    obtain rfl := trace_call.mp h₁
    refine .quiet (fun e he => ?_) (hf r (hroute method uri body bodyLen r List.mem_cons_self) tr₂ b h₂ ?_)
    · rw [List.mem_singleton.mp he]
      trivial
    · exact fun method uri body bodyLen x hx => hroute method uri body bodyLen x (List.mem_cons_of_mem _ hx)
  · exact hf _ (by decide) tr b ht hroute

theorem serves_handler (server : HttpServer) {hm : HttpMessage} (hmethod : untilNul hm.method = "POST")
    (huri : untilNul hm.uri = "/dbsc/register" ∨ untilNul hm.uri = "/dbsc/refresh") :
    Serves (dbscEventHandler L server hm) := by
  refine Serves.bind_any (inert_handleSessionSkipped server.cfg hm) fun _ => ?_
  refine Serves.bind_dup fun uri hu => Serves.bind_dup fun method hm' => ?_
  refine Serves.bind_any (onlyAllocates_mgStrDup _).inert fun body => ?_
  cases uri with
  | none => exact serves_internalServerError
  | some uri =>
    cases method with
    | none => exact serves_internalServerError
    | some method =>
      obtain rfl := hu uri rfl
      obtain rfl := hm' method rfl
      refine serves_route fun (rc, resp) hrc => ?_
      dsimp only
      rw [if_neg hrc, hmethod]
      exact serves_default server hm resp huri

end

/-! ## When the status is real -/

theorem inert_envEvents {tr : List HttpEvent} (h : ∀ e ∈ tr, Quiet e.op) : ∀ e ∈ envEvents tr, Inert e.op := by
  intro e he
  obtain ⟨⟨o, x⟩, hmem, henv⟩ := List.mem_filterMap.mp he
  cases o with
  | inl o =>
    cases henv
    exact h _ hmem
  | inr o => cases henv

theorem Served.real_iff {tr : List HttpEvent} (h : Served tr) (tr₀ : List HttpEvent) :
    (∀ status, Replies tr status → RealStatus status) ↔ ¬ (RenewalFails (envEvents tr) ∧ Assembled (tr₀ ++ tr)) := by
  induction h generalizing tr₀ with
  | failed headers body =>
    refine iff_of_true (fun status hreply => ?_) fun hfails => not_renewalFails_nil hfails.1
    rw [replies_sentReply.mp hreply]
    exact .inr (.inr (.inr (.inr rfl)))
  | @quiet tr₁ tr₂ hquiet _ ih =>
    rw [envEvents_append, renewalFails_append (inert_envEvents hquiet), ← List.append_assoc, ← ih (tr₀ ++ tr₁)]
    simp only [replies_quiet hquiet]
  | @manager tr₁ tr₂ r u hr hfails hsend =>
    obtain ⟨tr₃, status', headers, body, rfl, hquiet, hstatus⟩ := trace_sendResponse hsend
    have henv : ∀ e ∈ envEvents (tr₃ ++ [sentReply status' headers body]), Inert e.op := by
      rw [envEvents_append]
      exact fun e he => inert_envEvents hquiet e ((List.mem_append.mp he).resolve_right List.not_mem_nil)
    rw [envEvents_append, envEvents_map_inl, ← hfails _ henv]
    simp only [replies_lift]
    rcases hr with ⟨hrc, hreal⟩ | rfl
    · refine iff_of_true (fun status hreply => ?_) fun h => h.1 hrc
      rw [replies_sentReply.mp ((replies_quiet hquiet).mp hreply)]
      rcases hstatus with hstatus | hstatus
      · rw [hstatus]
        unfold RealStatus
        tauto
      · exact .inr (.inr (.inr (.inr hstatus)))
    · rw [← List.append_assoc]
      rcases trace_sendResponse_init (tr₀ ++ tr₁.map Event.inl) hsend with ⟨hassembled, hblank⟩ | ⟨hassembled, hfail⟩
      · refine iff_of_false (fun hall => ?_) (not_not.mpr ⟨by decide, hassembled⟩)
        have hzero := hall 0 hblank
        revert hzero
        unfold RealStatus
        decide
      · refine iff_of_true (fun status hreply => ?_) fun h => hassembled h.2
        rw [hfail status hreply]
        exact .inr (.inr (.inr (.inr rfl)))

end OpenDbsc
