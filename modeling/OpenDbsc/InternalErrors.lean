/-
What the requests return when something fails inside.

Whatever memory, entropy and the store answer, initiate, register and refresh
fill the response only on the way to a return of 0 (`ensures_register` and
its siblings). Close fills it before the deletion, and keeps it so when the
deletion fails (`error_response_iff`).
-/
import OpenDbsc.Effects.Pool
import OpenDbsc.ManagerTrace
import OpenDbsc.MemoryFailures

namespace OpenDbsc

open Effects Prog

/-! ## Responses -/

theorem ensures_refuse (statusCode : Int) (text : CStr) :
    Ensures (refuse statusCode text) fun r => r.1 = 0 ∧ r.2.statusCode = statusCode :=
  Ensures.bind_any fun _ => Ensures.pure ⟨rfl, rfl⟩

theorem ensures_challengeAgain (s : Session) :
    Ensures (challengeAgain s) fun r => r.1 = 0 ∧ r.2.statusCode = 403 := by
  refine Ensures.bind (P := fun resp : ManagerResponse => resp.statusCode = 403) ?_ fun resp h => Ensures.pure ⟨rfl, h⟩
  exact Ensures.bind_any fun _ => Ensures.bind_any fun _ => Ensures.pure rfl

theorem ensures_acceptedResponse (L : Extern) (cfg : ManagerConfig) (s : Session) :
    Ensures (acceptedResponse L cfg s) fun r => r.1 = 0 ∧ r.2.statusCode = 200 :=
  Ensures.bind_any fun _ => Ensures.bind_any fun _ => Ensures.bind_any fun _ => Ensures.pure ⟨rfl, rfl⟩

/-- A return of 0 with a status, or of -1 with nothing. -/
def Answered (r : Int × ManagerResponse) : Prop :=
  (r.1 = 0 ∧ (r.2.statusCode = 200 ∨ r.2.statusCode = 400 ∨ r.2.statusCode = 401 ∨ r.2.statusCode = 403)) ∨
    r = (-1, managerResponseInit)

section

variable {L : Extern} {cfg : ManagerConfig}

theorem Ensures.sys {α : Type} {p : Prog Sys α} {Q : α → Prop} (h : Ensures p Q) : Ensures (sys p) Q := Ensures.lift h

theorem answered_refuse {statusCode : Int} {text : CStr}
    (h : statusCode = 400 ∨ statusCode = 401) : Ensures (sys (refuse statusCode text)) Answered := by
  refine Ensures.sys fun tr r ht => ?_
  obtain ⟨hrc, hstatus⟩ := ensures_refuse statusCode text tr r ht
  rw [← hstatus] at h
  rcases h with h | h
  · exact .inl ⟨hrc, .inr (.inl h)⟩
  · exact .inl ⟨hrc, .inr (.inr (.inl h))⟩

theorem answered_challengeAgain (s : Session) : Ensures (sys (challengeAgain s)) Answered := by
  refine Ensures.sys fun tr r ht => ?_
  obtain ⟨hrc, hstatus⟩ := ensures_challengeAgain s tr r ht
  exact .inl ⟨hrc, .inr (.inr (.inr hstatus))⟩

theorem ensures_renewSession (type detail : CStr) (s : Session) :
    Ensures (renewSession L cfg type detail s) Answered := by
  unfold renewSession
  refine Ensures.bind_any fun challenge => ?_
  cases challenge with
  | none => exact Ensures.pure (.inr rfl)
  | some challenge =>
    refine Ensures.bind_any fun (_, s₁) => Ensures.bind_any fun s₂ => Ensures.bind_any fun rc => ?_
    split
    · exact Ensures.pure (.inr rfl)
    · refine Ensures.bind_any fun _ => Ensures.sys fun tr r ht => ?_
      obtain ⟨hrc, hstatus⟩ := ensures_acceptedResponse L cfg s₂ tr r ht
      exact .inl ⟨hrc, .inl hstatus⟩

theorem ensures_register (id header : Option CStr) : Ensures (managerRegister L cfg id header) Answered := by
  unfold managerRegister
  cases nonEmpty id with
  | none => exact answered_refuse (.inr rfl)
  | some id =>
    refine Ensures.bind_any fun out => ?_
    cases out with
    | none => exact answered_refuse (.inr rfl)
    | some s =>
      simp only
      split
      · exact answered_refuse (.inl rfl)
      cases nonEmpty header with
      | none => exact answered_challengeAgain s
      | some token =>
        refine Ensures.bind_any fun (rc, proof) => ?_
        simp only
        split
        · exact answered_challengeAgain s
        refine Ensures.bind_any fun same => ?_
        split
        · exact answered_challengeAgain s
        split
        · exact answered_challengeAgain s
        exact Ensures.bind_any fun (_, s₁) => Ensures.bind_any fun (_, s₂) => ensures_renewSession _ _ s₂

theorem ensures_refresh (id header : Option CStr) : Ensures (managerRefresh L cfg id header) Answered := by
  unfold managerRefresh
  cases nonEmpty id with
  | none => exact answered_refuse (.inl rfl)
  | some id =>
    refine Ensures.bind_any fun out => ?_
    cases out with
    | none => exact answered_refuse (.inr rfl)
    | some s =>
      simp only
      split
      · exact answered_refuse (.inl rfl)
      cases nonEmpty header with
      | none => exact answered_challengeAgain s
      | some token =>
        cases s.publicKey with
        | none => exact answered_challengeAgain s
        | some key =>
          refine Ensures.bind_any fun (rc, proof) => ?_
          simp only
          split
          · exact answered_challengeAgain s
          refine Ensures.bind_any fun same => ?_
          split
          · exact answered_challengeAgain s
          · exact ensures_renewSession _ _ s

theorem ensures_initiate (userId : CStr) (outSession : Option Session) :
    Ensures (managerInitiate L cfg userId outSession) fun r => Answered (r.1, r.2.1) := by
  unfold managerInitiate
  refine Ensures.bind_any fun id => ?_
  cases id with
  | none => exact Ensures.pure (.inr rfl)
  | some id =>
    refine Ensures.bind_any fun (_, s₁) => Ensures.bind_any fun (_, s₂) => Ensures.bind_any fun challenge => ?_
    cases challenge with
    | none => exact Ensures.pure (.inr rfl)
    | some challenge =>
      refine Ensures.bind_any fun (_, s₃) => Ensures.bind_any fun now => Ensures.bind_any fun s₄ =>
        Ensures.bind_any fun rc => ?_
      split
      · exact Ensures.pure (.inr rfl)
      · exact Ensures.bind_any fun _ => Ensures.bind_any fun _ => Ensures.bind_any fun _ =>
          Ensures.bind_any fun _ => Ensures.pure (.inl ⟨rfl, .inl rfl⟩)

/-! ## Close -/

/-- The store deletes what it is asked to. -/
def deleteOk : (o : (Sys.sum StoreSig).Op) → Option ((Sys.sum StoreSig).Ans o)
  | .inr (.delete _) => some 0
  | _ => none

/-- What fails carries no response. -/
def FailsBlank (r : Int × ManagerResponse) : Prop := r.1 = -1 → r.2 = managerResponseInit

theorem Answered.failsBlank {r : Int × ManagerResponse} (h : Answered r) : FailsBlank r := by
  intro hrc
  rcases h with h | rfl
  · rw [h.1] at hrc
    cases hrc
  · rfl

theorem obeys_deleteOk_lift {tr : List (Event Sys)} : Obeys deleteOk (tr.map (Event.inl (T := StoreSig))) := by
  intro e he x hx
  obtain ⟨e', -, rfl⟩ := List.mem_map.mp he
  cases hx

theorem reports_sys {α : Type} (p : Prog Sys α) : Reports (fun _ => True) deleteOk (fun _ => True) (sys p) := by
  intro tr a ht _
  obtain ⟨tr', rfl, -⟩ := trace_lift.mp ht
  exact iff_of_true trivial obeys_deleteOk_lift

theorem reports_refuse {statusCode : Int} {text : CStr} :
    Reports (fun _ => True) deleteOk FailsBlank (sys (refuse statusCode text)) := by
  intro tr r ht _
  obtain ⟨tr', rfl, ht'⟩ := trace_lift.mp ht
  refine iff_of_true (fun hrc => ?_) obeys_deleteOk_lift
  rw [(ensures_refuse statusCode text tr' r ht').1] at hrc
  cases hrc

theorem reports_storeGet (id : CStr) : Reports (fun _ => True) deleteOk (fun _ => True) (storeGet id) :=
  reports_perform (S := Sys.sum StoreSig) (o := .inr (.get (some id))) fun _ _ =>
    iff_of_true trivial fun _ h => nomatch h

theorem reports_storeDelete (id : CStr) : Reports (fun _ => True) deleteOk (fun rc => rc = 0) (storeDelete id) :=
  reports_perform (S := Sys.sum StoreSig) (o := .inr (.delete (some id))) fun rc _ => by
    constructor
    · rintro rfl _ ⟨⟩
      rfl
    · exact fun h => h 0 rfl

/-- Close fails with a response already filled exactly when the deletion fails. -/
theorem reports_close (id : Option CStr) : Reports (fun _ => True) deleteOk FailsBlank (managerClose L cfg id) := by
  unfold managerClose
  cases nonEmpty id with
  | none => exact reports_refuse
  | some id' =>
    refine (reports_storeGet id').bind_silent fun out => ?_
    cases out with
    | none => exact reports_refuse
    | some s =>
      refine (reports_sys _).bind_silent fun user => ?_
      split
      · exact reports_pure fun _ => rfl
      refine (reports_sys _).bind_silent fun body => ?_
      cases body with
      | none => exact reports_pure fun _ => rfl
      | some body =>
        refine (reports_sys _).bind_silent fun setCookie => ?_
        refine (reports_storeDelete id').bind (fun rc hrc => ?_) fun rc hrc => ?_
        · rw [if_neg (not_not.mpr hrc)]
          exact (reports_sys _).bind_silent fun _ => reports_pure nofun
        · rw [if_pos hrc]
          refine Ensures.pure fun h => ?_
          have hstatus := congrArg ManagerResponse.statusCode (h rfl)
          cases hstatus

end

/-! ## The calls that fill a response -/

inductive ResponseCall where
  /-- The user id is null when the pointer is. -/
  | initiate (userId : Option CStr) (outSession : Option Session)
  | register (cookieSessionId sessionResponseHeader : Option CStr)
  | refresh (sessionId sessionResponseHeader : Option CStr)
  | close (sessionId : Option CStr)

/-- The call, given the response as the caller left it: initiate refuses a
null user id before it initialises that. -/
def ResponseCall.program (L : Extern) (cfg : ManagerConfig) (resp : ManagerResponse) :
    ResponseCall → Request (Int × ManagerResponse)
  | initiate none _ => pure (-1, resp)
  | initiate (some userId) outSession => do
    let (rc, resp, _) ← managerInitiate L cfg userId outSession
    return (rc, resp)
  | register id header => managerRegister L cfg id header
  | refresh id header => managerRefresh L cfg id header
  | close id => managerClose L cfg id

/-- A close whose deletion the store reports as failed. -/
def DeletionFails (call : ResponseCall) (tr : List (Event (Sys.sum StoreSig))) : Prop :=
  ∃ sessionId id code, call = .close sessionId ∧ answered (.delete id) code ∈ tr ∧ code ≠ 0

theorem obeys_deleteOk_iff {id : Option CStr} {tr : List (Event (Sys.sum StoreSig))} :
    Obeys deleteOk tr ↔ ¬ DeletionFails (.close id) tr := by
  constructor
  · rintro h ⟨_, id', code, -, he, hcode⟩
    exact hcode (h _ he 0 rfl)
  · rintro h ⟨o, x⟩ he y hy
    cases o with
    | inl o => cases hy
    | inr o =>
      cases o with
      | delete id' =>
        cases hy
        by_contra hcode
        exact h ⟨id, id', x, rfl, he, hcode⟩
      | _ => cases hy

theorem DeletionFails.close {call : ResponseCall} {tr : List (Event (Sys.sum StoreSig))} (h : DeletionFails call tr) :
    ∃ id, call = .close id := by
  obtain ⟨id, -, -, hcall, -⟩ := h
  exact ⟨id, hcall⟩

/-- **When an internal error carries no response**: exactly when it is not a
close whose deletion failed. What the caller initialised stays so also when
initiate refuses a null user id. -/
theorem error_response_iff (L : Extern) (cfg : ManagerConfig) (call : ResponseCall) {tr : List (Event (Sys.sum StoreSig))}
    {rc : Int} {resp : ManagerResponse} (h : Trace (call.program L cfg managerResponseInit) tr (rc, resp)) :
    (rc = -1 → resp = managerResponseInit) ↔ ¬ DeletionFails call tr := by
  have hother : (∀ id, call ≠ .close id) → ¬ DeletionFails call tr := fun hne hfails => by
    obtain ⟨id, hcall⟩ := hfails.close
    exact hne id hcall
  cases call with
  | initiate userId outSession =>
    refine iff_of_true ?_ (hother nofun)
    cases userId with
    | none =>
      obtain ⟨-, heq⟩ := trace_pure.mp h
      exact fun _ => (Prod.mk.inj heq).2
    | some userId =>
      obtain ⟨tr₁, ⟨rc', resp', out⟩, tr₂, rfl, hinit, hret⟩ := trace_bind.mp h
      obtain ⟨rfl, heq⟩ := trace_pure.mp hret
      obtain ⟨rfl, rfl⟩ := Prod.mk.inj heq
      exact (ensures_initiate userId outSession tr₁ _ hinit).failsBlank
  | register id header => exact iff_of_true (ensures_register id header tr _ h).failsBlank (hother nofun)
  | refresh id header => exact iff_of_true (ensures_refresh id header tr _ h).failsBlank (hother nofun)
  | close id =>
    rw [← obeys_deleteOk_iff]
    exact (reports_close id).any h

/-- A runtime in which nothing fails, at 11. -/
def runtimeEleven : (o : Sys.Op) → Option (Sys.Ans o)
  | .time => some 11
  | .clockGettime => some (some (11, 0))
  | .getentropy n => some (some ⟨List.replicate n 7, List.length_replicate ..⟩)
  | .malloc _ => some true
  | .library => some true
  | .onEvent .. => some ()
  | .undefined => none

/-- A store that finds `session` and fails at every write. -/
def brokenStore (session : Session) (_ : Nat) : (o : (Sys.sum StoreSig).Op) → Option ((Sys.sum StoreSig).Ans o)
  | .inl o => runtimeEleven o
  | .inr (.get _) => some (some session)
  | .inr (.getByUserId _) => some none
  | .inr (.create _) => some (-1)
  | .inr (.update _) => some (-1)
  | .inr (.delete _) => some (-1)
  | .inr (.deleteByUserId _) => some (-1)

/-- A login whose session cannot be stored. -/
theorem error_response_login : ∃ tr resp, follow (brokenStore sessionToTen) 0
    (ResponseCall.program (Extern.knowing [] fun _ _ => true) ⟨some "sid", some "/", none, true, some "Lax", 3600, 60, none, true⟩
      managerResponseInit (.initiate (some "u") none)) = some (tr, -1, resp) ∧ resp = managerResponseInit := by
  have hlogin : ∃ tr resp, follow (brokenStore sessionToTen) 0
      (ResponseCall.program (Extern.knowing [] fun _ _ => true)
        ⟨some "sid", some "/", none, true, some "Lax", 3600, 60, none, true⟩
        managerResponseInit (.initiate (some "u") none)) = some (tr, -1, resp) := ⟨_, _, rfl⟩
  obtain ⟨tr, resp, hlogin⟩ := hlogin
  refine ⟨tr, resp, hlogin, (error_response_iff _ _ _ (trace_follow hlogin)).mpr ?_ rfl⟩
  rintro ⟨_, _, _, ⟨⟩, _⟩

/-- A close whose deletion fails returns -1 with the response of one that succeeded. -/
theorem close_fails_with_response : ¬ ∀ (L : Extern) (cfg : ManagerConfig) (call : ResponseCall)
    (tr : List (Event (Sys.sum StoreSig))) (rc : Int) (resp : ManagerResponse),
    Trace (call.program L cfg managerResponseInit) tr (rc, resp) → rc = -1 → resp = managerResponseInit := by
  intro h
  have hclose : ∃ tr resp, follow (brokenStore sessionToTen) 0
      (ResponseCall.program (Extern.knowing [] fun _ _ => true)
        ⟨some "sid", some "/", none, true, some "Lax", 3600, 60, none, true⟩
        managerResponseInit (.close (some "a"))) = some (tr, -1, resp) ∧ resp.statusCode = 200 := ⟨_, _, rfl, rfl⟩
  obtain ⟨tr, resp, hclose, hstatus⟩ := hclose
  rw [h _ _ _ tr _ resp (trace_follow hclose) rfl] at hstatus
  cases hstatus

end OpenDbsc
