/-
Every run of the handler, to its end.

A register or refresh request is answered once, or its run ends before any
reply in the comparison with a null challenge (`Silenced`). So exactly one
status is handed over, and a real one, exactly when the session that is looked
up has a challenge to compare with, and the renewal does not fail
(`real_status_iff`).
-/
import OpenDbsc.HttpStatus
import OpenDbsc.NullChallenge

namespace OpenDbsc

open Effects Prog

/-! ## The header with the token -/

section

variable {hm : HttpMessage} {name token : CStr} {out : Option CStr} {tr tr' : List (Event Sys)}

/-- The header's text is copied in two allocations. -/
theorem trace_unquotedHeader (h : Trace (unquotedHeader hm name) tr out) :
    (out = none ∧ ∀ bytes, hm.getHeader name = some bytes → bytes = []) ∨
      (out = none ∧ ∃ n, tr = [⟨.malloc n, false⟩]) ∨
      (∃ bytes, hm.getHeader name = some bytes ∧ bytes ≠ []) ∧
        ∃ n m b, tr = [⟨.malloc n, true⟩, ⟨.malloc m, b⟩] ∧ (out = none ∨ b = true) := by
  obtain ⟨tr₁, raw, tr₂, rfl, h₁, h₂⟩ := trace_bind.mp h
  unfold mgStrDup at h₁
  split at h₁
  · rename_i hnone
    obtain ⟨rfl, rfl⟩ := trace_pure.mp h₁
    obtain ⟨rfl, rfl⟩ := trace_pure.mp h₂
    exact .inl ⟨rfl, by simp [hnone]⟩
  · rename_i hempty
    obtain ⟨rfl, rfl⟩ := trace_pure.mp h₁
    obtain ⟨rfl, rfl⟩ := trace_pure.mp h₂
    exact .inl ⟨rfl, by simp [hempty]⟩
  · right
    rename_i bytes hne heq
    obtain ⟨tr₃, b, tr₄, rfl, h₃, h₄⟩ := trace_bind.mp h₁
    rw [(trace_perform (S := Sys) (o := .malloc _)).mp h₃]
    cases b with
    | false =>
      obtain ⟨rfl, rfl⟩ := trace_pure.mp h₄
      obtain ⟨rfl, rfl⟩ := trace_pure.mp h₂
      exact .inl ⟨rfl, _, rfl⟩
    | true =>
      refine .inr ⟨⟨bytes, heq, hne⟩, ?_⟩
      obtain ⟨rfl, rfl⟩ := trace_pure.mp h₄
      unfold stripQuotes at h₂
      simp only at h₂
      split at h₂
      · obtain ⟨tr₅, b, tr₆, rfl, h₅, h₆⟩ := trace_bind.mp h₂
        rw [(trace_perform (S := Sys) (o := .malloc _)).mp h₅]
        cases b with
        | false =>
          obtain ⟨rfl, rfl⟩ := trace_pure.mp h₆
          exact ⟨_, _, _, rfl, .inl rfl⟩
        | true =>
          obtain ⟨rfl, rfl⟩ := trace_pure.mp h₆
          exact ⟨_, _, _, rfl, .inr rfl⟩
      · obtain ⟨tr₅, b, tr₆, rfl, h₅, h₆⟩ := trace_bind.mp h₂
        rw [(trace_perform (S := Sys) (o := .malloc _)).mp h₅]
        cases b with
        | false =>
          obtain ⟨rfl, rfl⟩ := trace_pure.mp h₆
          exact ⟨_, _, _, rfl, .inl rfl⟩
        | true =>
          obtain ⟨rfl, rfl⟩ := trace_pure.mp h₆
          exact ⟨_, _, _, rfl, .inr rfl⟩

/-- What was allocated last tells whether the text was copied. -/
theorem unquotedHeader_copied (h : Trace (unquotedHeader hm name) tr (some token))
    (h' : Trace (unquotedHeader hm name) tr' out) {pre pre' : List (Event Sys)} (heq : pre' ++ tr' = pre ++ tr) :
    out = some token := by
  rcases trace_unquotedHeader h with ⟨hnone, -⟩ | ⟨hnone, -⟩ | ⟨⟨bytes, hbytes, hne⟩, n, m, b, rfl, hb⟩
  · cases hnone
  · cases hnone
  · obtain rfl := hb.resolve_left (Option.some_ne_none _)
    rcases trace_unquotedHeader h' with ⟨-, hempty⟩ | ⟨-, n', rfl⟩ | ⟨-, n', m', b', rfl, -⟩
    · exact absurd (hempty bytes hbytes) hne
    · have hlast := congrArg List.getLast? heq
      simp at hlast
    · obtain ⟨-, hsame⟩ := List.append_inj' heq rfl
      rw [hsame] at h'
      exact (h.unique h' (rfl : _ ++ [] = _ ++ [])).2.1.symm

end

/-! ## The manager's part -/

/-- The verification the request's endpoint makes. -/
def endpointCheck (L : Extern) (hm : HttpMessage) : Session → CStr → Option (Prog Sys (Int × ProofJWT)) :=
  if untilNul hm.uri = "/dbsc/register" then registerCheck L else refreshCheck L

/-- The last the manager does is verify the request's token for a session that has no challenge. -/
def EndsInNull (L : Extern) (hm : HttpMessage) (tr : List (Event (Sys.sum StoreSig))) : Prop :=
  ∃ pre trH token key s trV,
    tr = (pre ++ trH).map Event.inl ++ answered (.get (some key)) (some s) :: trV.map Event.inl ∧
    Trace (unquotedHeader hm "Secure-Session-Response") trH (some token) ∧ token ≠ [] ∧
    ComparesNull (endpointCheck L hm) s token trV

/-- A request that is stuck only there, and asks the store first of all. -/
structure ComesToNull (L : Extern) (hm : HttpMessage)
    (call : Option CStr → Option CStr → Request (Int × ManagerResponse)) : Prop where
  stuck : ∀ {id header tr}, Stuck (call id header) tr ↔ ∃ key token s trV, nonEmpty id = some key ∧
    nonEmpty header = some token ∧ tr = answered (.get (some key)) (some s) :: trV.map Event.inl ∧
    ComparesNull (endpointCheck L hm) s token trV
  asks : ∀ {id header tr r}, Trace (call id header) tr r → (∃ tr' : List (Event Sys), tr = tr'.map Event.inl) ∨
    ∃ key out tr', nonEmpty id = some key ∧ tr = answered (.get (some key)) out :: tr'

section

variable {L : Extern} {cfg : ManagerConfig} {hm : HttpMessage}

/-- A request that refuses a missing id, or looks it up. -/
theorem asks_first {id : Option CStr} {p : Request (Int × ManagerResponse)} {tr r}
    (hnone : nonEmpty id = none → ∃ refused : Prog Sys (Int × ManagerResponse), p = sys refused)
    (hsome : ∀ key, nonEmpty id = some key → ∃ f, p = storeGet key >>= f) (h : Trace p tr r) :
    (∃ tr' : List (Event Sys), tr = tr'.map Event.inl) ∨
      ∃ key out tr', nonEmpty id = some key ∧ tr = answered (.get (some key)) out :: tr' := by
  cases hid : nonEmpty id with
  | none =>
    obtain ⟨refused, rfl⟩ := hnone hid
    obtain ⟨tr', rfl, -⟩ := trace_lift.mp h
    exact .inl ⟨tr', rfl⟩
  | some key =>
    obtain ⟨f, rfl⟩ := hsome key hid
    obtain ⟨tr₁, out, tr₂, rfl, h₁, -⟩ := trace_bind.mp h
    obtain rfl := trace_call.mp h₁
    exact .inr ⟨key, out, tr₂, rfl, rfl⟩

theorem register_comesToNull (huri : untilNul hm.uri = "/dbsc/register") :
    ComesToNull L hm (managerRegister L cfg) where
  stuck := by
    rw [endpointCheck, if_pos huri]
    exact stuck_register
  asks := by
    intro id header tr r
    refine asks_first (fun hid => ?_) fun key hid => ?_
    · rw [managerRegister, hid]
      exact ⟨_, rfl⟩
    · rw [managerRegister, hid]
      exact ⟨_, rfl⟩

theorem refresh_comesToNull (huri : untilNul hm.uri = "/dbsc/refresh") : ComesToNull L hm (managerRefresh L cfg) where
  stuck := by
    rw [endpointCheck, if_neg (by rw [huri]; decide)]
    exact stuck_refresh
  asks := by
    intro id header tr r
    refine asks_first (fun hid => ?_) fun key hid => ?_
    · rw [managerRefresh, hid]
      exact ⟨_, rfl⟩
    · rw [managerRefresh, hid]
      exact ⟨_, rfl⟩

/-! ## The handler's part -/

/-- A program whose runs end in the comparison with a null challenge, before
any reply, exactly when they do not return. -/
structure Silenced (L : Extern) (hm : HttpMessage) {α : Type} (p : HttpProg α) : Prop where
  stuck : ∀ {tr}, Stuck p tr → Unrouted tr → (∀ status, ¬ Replies tr status) ∧ EndsInNull L hm (envEvents tr)
  returns : ∀ {tr a}, Trace p tr a → Unrouted tr →
    ∀ pre : List (Event Sys), ¬ EndsInNull L hm (pre.map Event.inl ++ envEvents tr)

theorem EndsInNull.prepend {tr : List (Event (Sys.sum StoreSig))} (h : EndsInNull L hm tr) (pre : List (Event Sys)) :
    EndsInNull L hm (pre.map Event.inl ++ tr) := by
  obtain ⟨pre', trH, token, key, s, trV, rfl, h⟩ := h
  exact ⟨pre ++ pre', trH, token, key, s, trV, by simp, h⟩

/-- Where the manager did nothing. -/
theorem not_endsInNull (tr : List (Event Sys)) : ¬ EndsInNull L hm (tr.map Event.inl) := by
  rintro ⟨pre, trH, token, key, s, trV, heq, -⟩
  have hmem : answered (.get (some key)) (some s) ∈ tr.map (Event.inl (T := StoreSig)) := by simp [heq]
  obtain ⟨e, -, he⟩ := List.mem_map.mp hmem
  cases he

variable {α β : Type}

theorem envEvents_runtime (tr : List (Event Sys)) :
    envEvents ((tr.map (Event.inl (T := StoreSig))).map (Event.inl (T := HttpSig))) = tr.map Event.inl :=
  envEvents_map_inl _

theorem trace_runtime {p : Prog Sys α} {tr : List HttpEvent} {a} (h : Trace (runtime p) tr a) :
    ∃ tr', tr = (tr'.map Event.inl).map Event.inl ∧ Trace p tr' a := by
  obtain ⟨tr₁, rfl, h₁⟩ := trace_lift.mp h
  obtain ⟨tr₂, rfl, h₂⟩ := trace_lift.mp h₁
  exact ⟨tr₂, rfl, h₂⟩

theorem Unrouted.of_append {tr₁ tr₂ : List HttpEvent} (h : Unrouted (tr₁ ++ tr₂)) : Unrouted tr₂ :=
  fun method uri body bodyLen x hx => h method uri body bodyLen x (List.mem_append_right _ hx)

theorem Silenced.bind {p : Prog Sys α} {Q : α → Prop} {f : α → HttpProg β} (hp : p.Answerable) (hQ : Ensures p Q)
    (hf : ∀ a, Q a → Silenced L hm (f a)) : Silenced L hm (runtime p >>= f) where
  stuck := by
    intro tr h hroute
    obtain ⟨tr₁, a, tr₂, rfl, h₁, h₂⟩ := (stuck_bind_answerable hp.lift.lift).mp h
    obtain ⟨tr', rfl, h'⟩ := trace_runtime h₁
    obtain ⟨hreply, hnull⟩ := (hf a (hQ tr' a h')).stuck h₂ hroute.of_append
    rw [envEvents_append, envEvents_runtime]
    exact ⟨fun status hs => hreply status (replies_lift.mp hs), hnull.prepend tr'⟩
  returns := by
    intro tr b h hroute pre
    obtain ⟨tr₁, a, tr₂, rfl, h₁, h₂⟩ := trace_bind.mp h
    obtain ⟨tr', rfl, h'⟩ := trace_runtime h₁
    rw [envEvents_append, envEvents_runtime, ← List.append_assoc, ← List.map_append]
    exact (hf a (hQ tr' a h')).returns h₂ hroute.of_append _

theorem Silenced.bind_any {p : Prog Sys α} {f : α → HttpProg β} (hp : p.Answerable) (hf : ∀ a, Silenced L hm (f a)) :
    Silenced L hm (runtime p >>= f) :=
  Silenced.bind hp (fun _ _ _ => trivial) fun a (_ : True) => hf a

theorem answerable_reply (status : Int) (headers body : CStr) : (mgHttpReply status headers body).Answerable :=
  answerable_call (T := HttpSig) (o := .reply status headers body) ⟨()⟩

theorem answerable_sendResponse (resp : ManagerResponse) : (sendResponse resp).Answerable := by
  refine (onlyAllocates_responseHeaders resp).answerable.lift.lift.bind fun headers => ?_
  cases headers with
  | none => exact answerable_reply ..
  | some headers => exact answerable_reply ..

theorem envEvents_sendResponse {resp : ManagerResponse} {tr : List HttpEvent} {u : Unit}
    (h : Trace (sendResponse resp) tr u) : ∃ tr' : List (Event Sys), envEvents tr = tr'.map Event.inl := by
  obtain ⟨tr₁, out, tr₂, rfl, h₁, h₂⟩ := trace_bind.mp h
  obtain ⟨tr', rfl, -⟩ := trace_runtime h₁
  have hreply : envEvents tr₂ = [] := by
    cases out with
    | none =>
      rw [trace_mgHttpReply h₂]
      rfl
    | some headers =>
      rw [trace_mgHttpReply h₂]
      rfl
  exact ⟨tr', by rw [envEvents_append, envEvents_runtime, hreply, List.append_nil]⟩

theorem silenced_internalServerError : Silenced L hm internalServerError where
  stuck h _ := absurd (answerable_reply ..) h.not_answerable
  returns h _ pre := by
    rw [trace_mgHttpReply h]
    have hnone : pre.map Event.inl ++ envEvents [sentReply 500 plainText "Internal Server Error"] =
        pre.map (Event.inl (T := StoreSig)) := List.append_nil _
    rw [hnone]
    exact not_endsInNull pre

theorem not_replies_lift {tr : List (Event (Sys.sum StoreSig))} {status : Int} :
    ¬ Replies (tr.map Event.inl) status := by
  rw [← List.append_nil (tr.map Event.inl), replies_lift]
  rintro ⟨_, _, hmem⟩
  exact List.not_mem_nil hmem

/-- An endpoint, from the copying of the header with the token on. -/
theorem silenced_endpoint {call : Option CStr → Option CStr → Request (Int × ManagerResponse)}
    (hcall : ComesToNull L hm call) (id : Option CStr) :
    Silenced L hm (do
      let proof ← runtime (unquotedHeader hm "Secure-Session-Response")
      let (_, resp) ← (call id proof).lift
      sendResponse resp) where
  stuck := by
    intro tr h hroute
    obtain ⟨tr₁, proof, tr₂, rfl, h₁, h₂⟩ :=
      (stuck_bind_answerable (onlyAllocates_unquotedHeader ..).answerable.lift.lift).mp h
    obtain ⟨trH, rfl, hheader⟩ := trace_runtime h₁
    have hmanager : Stuck ((call id proof).lift (T := HttpSig)) tr₂ := by
      rcases stuck_bind.mp h₂ with h₂ | ⟨_, r, _, _, _, h₂⟩
      · exact h₂
      · exact absurd (answerable_sendResponse r.2) h₂.not_answerable
    obtain ⟨trM, rfl, hstuck⟩ := stuck_lift.mp hmanager
    obtain ⟨key, token, s, trV, -, htoken, rfl, hnull⟩ := hcall.stuck.mp hstuck
    obtain ⟨rfl, hne⟩ := Option.filter_eq_some_iff.mp htoken
    refine ⟨fun status hs => not_replies_lift (replies_lift.mp hs), [], trH, token, key, s, trV, ?_, hheader,
      by simpa using hne, hnull⟩
    rw [envEvents_append, envEvents_runtime, envEvents_map_inl]
    rfl
  returns := by
    intro tr u h hroute pre
    obtain ⟨tr₁, proof, tr₂, rfl, h₁, h₂⟩ := trace_bind.mp h
    obtain ⟨trH', rfl, hheader'⟩ := trace_runtime h₁
    obtain ⟨tr₃, r, tr₄, rfl, h₃, h₄⟩ := trace_bind.mp h₂
    obtain ⟨trM, rfl, hmanager⟩ := trace_lift.mp h₃
    obtain ⟨trS, hsend⟩ := envEvents_sendResponse h₄
    rw [envEvents_append, envEvents_append, envEvents_runtime, envEvents_map_inl, hsend]
    rcases hcall.asks hmanager with ⟨tr', rfl⟩ | ⟨key, out, tr', hid, rfl⟩
    · simp only [← List.map_append]
      exact not_endsInNull _
    · rintro ⟨pre', trH, token, key', s, trV, heq, hheader, hne, hnull⟩
      rw [← List.append_assoc, ← List.map_append, List.cons_append] at heq
      obtain ⟨hpre, hget, hrest⟩ := map_inl_append_call_inj _ heq
      cases hget
      obtain rfl := unquotedHeader_copied hheader hheader' hpre
      have htoken : nonEmpty (some token) = some token := Option.filter_eq_some_iff.mpr ⟨rfl, by simpa using hne⟩
      exact (hcall.stuck.mpr ⟨key, token, s, trV, hid, htoken, rfl, hnull⟩).not_trace hmanager
        (by rw [List.cons_append, hrest])

theorem silenced_default (server : HttpServer) {uri : CStr} (resp : ManagerResponse)
    (huri : uri = "/dbsc/register" ∨ uri = "/dbsc/refresh") (hm : HttpMessage) (hsame : untilNul hm.uri = uri) :
    Silenced L hm (defaultEndpoint L server hm "POST" uri resp) := by
  rcases huri with rfl | rfl
  · exact Silenced.bind_any (onlyAllocates_httpGetCookie ..).answerable fun cookie =>
      silenced_endpoint (register_comesToNull hsame) cookie
  · exact Silenced.bind_any (onlyAllocates_sessionIdOf ..).answerable fun sessionId =>
      silenced_endpoint (refresh_comesToNull hsame) sessionId

/-- A route that is asked does not handle the request. -/
theorem silenced_route {server : HttpServer} {method uri : CStr} {body : Option CStr} {bodyLen : Nat}
    {f : Int × ManagerResponse → HttpProg β} (hf : ∀ r, r.1 ≠ 0 → Silenced L hm (f r)) :
    Silenced L hm ((if server.route then call (T := HttpSig) (.route method uri body bodyLen)
      else pure (-1, managerResponseInit)) >>= f) := by
  split
  · have hcall : (call (S := Sys.sum StoreSig) (T := HttpSig) (.route method uri body bodyLen)).Answerable :=
      answerable_call ⟨(0, managerResponseInit)⟩
    constructor
    · intro tr h hroute
      obtain ⟨tr₁, r, tr₂, rfl, h₁, h₂⟩ := (stuck_bind_answerable hcall).mp h
      obtain rfl := trace_call.mp h₁
      obtain ⟨hreply, hnull⟩ := (hf r (hroute method uri body bodyLen r List.mem_cons_self)).stuck h₂ hroute.of_append
      refine ⟨fun status ⟨headers, body', hmem⟩ => hreply status ⟨headers, body', ?_⟩, hnull⟩
      rcases List.mem_cons.mp hmem with heq | hmem
      · cases heq
      · exact hmem
    · intro tr b h hroute pre
      obtain ⟨tr₁, r, tr₂, rfl, h₁, h₂⟩ := trace_bind.mp h
      obtain rfl := trace_call.mp h₁
      exact (hf r (hroute method uri body bodyLen r List.mem_cons_self)).returns h₂ hroute.of_append pre
  · exact hf _ (by decide)

theorem answerable_handleSessionSkipped (hm : HttpMessage) : (handleSessionSkipped cfg hm).Answerable := by
  have hentries : ∀ entries, (emitSkipped cfg entries).Answerable := by
    intro entries
    induction entries with
    | nil => exact answerable_pure ()
    | cons entry rest ih => exact (answerable_emitEvent ..).bind fun _ => ih
  refine (onlyAllocates_mgStrDup _).answerable.bind fun value => ?_
  cases value with
  | none => exact answerable_pure ()
  | some value =>
    refine (onlyAllocates_skippedEntries ..).answerable.bind fun entries => ?_
    cases entries with
    | none => exact answerable_pure ()
    | some entries => exact hentries entries

theorem silenced_handler (server : HttpServer) {hm : HttpMessage} (hmethod : untilNul hm.method = "POST")
    (huri : untilNul hm.uri = "/dbsc/register" ∨ untilNul hm.uri = "/dbsc/refresh") :
    Silenced L hm (dbscEventHandler L server hm) := by
  refine Silenced.bind_any (answerable_handleSessionSkipped hm) fun _ => ?_
  refine Silenced.bind (onlyAllocates_mgStrDup _).answerable (ensures_mgStrDup hm.uri) fun uri hu => ?_
  refine Silenced.bind (onlyAllocates_mgStrDup _).answerable (ensures_mgStrDup hm.method) fun method hm' => ?_
  refine Silenced.bind_any (onlyAllocates_mgStrDup _).answerable fun body => ?_
  cases uri with
  | none => exact silenced_internalServerError
  | some uri =>
    cases method with
    | none => exact silenced_internalServerError
    | some method =>
      obtain rfl := hu uri rfl
      obtain rfl := hm' method rfl
      refine silenced_route fun (rc, resp) hrc => ?_
      dsimp only
      rw [if_neg hrc, hmethod]
      exact silenced_default server resp huri hm rfl

/-- A request that is served is answered once. -/
theorem Served.once {tr : List HttpEvent} (h : Served tr) :
    ∃ status, ∀ status', Replies tr status' ↔ status' = status := by
  induction h with
  | failed headers body => exact ⟨500, fun _ => replies_sentReply⟩
  | quiet hquiet _ ih =>
    obtain ⟨status, hreplies⟩ := ih
    exact ⟨status, fun _ => (replies_quiet hquiet).trans (hreplies _)⟩
  | manager _ _ hsend =>
    obtain ⟨tr₁, status, headers, body, rfl, hquiet, -⟩ := trace_sendResponse hsend
    exact ⟨status, fun _ => replies_lift.trans ((replies_quiet hquiet).trans replies_sentReply)⟩

end

/-! ## When the status is real -/

/-- **When a register or refresh request gets a real status**, and only one:
exactly when its run does not end in the comparison with a null challenge and
its renewal does not fail, or the blank response cannot be put together
either, whatever else goes wrong. -/
theorem real_status_iff (L : Extern) (server : HttpServer) {hm : HttpMessage} (hmethod : untilNul hm.method = "POST")
    (huri : untilNul hm.uri = "/dbsc/register" ∨ untilNul hm.uri = "/dbsc/refresh") {tr : List HttpEvent}
    (h : Ends (dbscEventHandler L server hm) tr) (hroute : Unrouted tr) :
    (∃ status, RealStatus status ∧ ∀ status', Replies tr status' ↔ status' = status) ↔
      ¬ (RenewalFails (envEvents tr) ∧ Assembled tr) ∧ ¬ EndsInNull L hm (envEvents tr) := by
  rcases h with ⟨u, h⟩ | h
  · have hserved := serves_handler server hmethod huri tr u h hroute
    have hreturns : ¬ EndsInNull L hm (envEvents tr) := (silenced_handler server hmethod huri).returns h hroute []
    obtain ⟨status, hreplies⟩ := hserved.once
    have hreal := hserved.real_iff []
    rw [List.nil_append] at hreal
    rw [and_iff_left hreturns, ← hreal]
    constructor
    · rintro ⟨status', hstatus, hreplies'⟩ status'' hreply
      rwa [(hreplies' status'').mp hreply]
    · exact fun hall => ⟨status, hall status ((hreplies status).mpr rfl), hreplies⟩
  · obtain ⟨hreply, hnull⟩ := (silenced_handler server hmethod huri).stuck h hroute
    exact iff_of_false (fun ⟨status, _, hreplies⟩ => hreply status ((hreplies status).mpr rfl)) fun h => h.2 hnull

/-- A refresh whose session is named by its header. -/
def refreshMessage : HttpMessage where
  method := "POST".toList
  uri := "/dbsc/refresh".toList
  body := []
  getHeader name :=
    if name = "Sec-Secure-Session-Id" then some zeroId
    else if name = "Secure-Session-Response" then some (refreshToken (drawnChallenge 1))
    else none

/-- A server whose route handles nothing. -/
def plainServer : HttpServer := ⟨plainConfig 0, true, none⟩

/-- The session is found, and the store answers its update with `code`. -/
def serving (code : Int) (_ : Nat) :
    (o : ((Sys.sum StoreSig).sum HttpSig).Op) → Option (((Sys.sum StoreSig).sum HttpSig).Ans o)
  | .inl (.inl o) => runtimeEleven o
  | .inl (.inr (.get _)) => some (some (deviceSession (drawnChallenge 1)))
  | .inl (.inr (.update _)) => some code
  | .inr (.route ..) => some (-1, managerResponseInit)
  | .inr (.reply ..) => some ()
  | _ => none

def statusOf : HttpEvent → Option Int
  | ⟨.inr (.reply statusCode _ _), _⟩ => some statusCode
  | _ => none

theorem replies_iff {tr : List HttpEvent} {status : Int} : Replies tr status ↔ status ∈ tr.filterMap statusOf := by
  rw [List.mem_filterMap]
  constructor
  · rintro ⟨headers, body, hmem⟩
    exact ⟨_, hmem, rfl⟩
  · rintro ⟨e, hmem, he⟩
    unfold statusOf at he
    split at he
    · cases he
      exact ⟨_, _, hmem⟩
    · cases he

/-- What a route that was asked returned. -/
def routedCode : HttpEvent → Option Int
  | ⟨.inr (.route ..), x⟩ => some x.1
  | _ => none

theorem unrouted_of_codes {tr : List HttpEvent} (h : ∀ code ∈ tr.filterMap routedCode, code ≠ 0) : Unrouted tr :=
  fun _ _ _ _ x hmem => h x.1 (List.mem_filterMap.mpr ⟨_, hmem, rfl⟩)

/-- The refresh, with the store's answer to its update. -/
theorem exists_served {code : Int} {statuses : List Int}
    (hplay : (follow (serving code) 0
      (dbscEventHandler (deviceExtern [drawnChallenge 1]) plainServer refreshMessage)).map
      (fun r => (r.1.filterMap statusOf, r.1.filterMap routedCode)) = some (statuses, [-1])) :
    ∃ tr, Ends (dbscEventHandler (deviceExtern [drawnChallenge 1]) plainServer refreshMessage) tr ∧ Unrouted tr ∧
      ∀ status, Replies tr status ↔ status ∈ statuses := by
  obtain ⟨⟨tr, u⟩, hfollow, hfacts⟩ := Option.map_eq_some_iff.mp hplay
  obtain ⟨rfl, hroute⟩ := Prod.mk.inj hfacts
  refine ⟨tr, .inl ⟨u, trace_follow hfollow⟩, unrouted_of_codes ?_, fun status => replies_iff⟩
  simp [hroute]

/-- The session that is found has no challenge. -/
def servingNull (n : Nat) : (o : ((Sys.sum StoreSig).sum HttpSig).Op) → Option (((Sys.sum StoreSig).sum HttpSig).Ans o)
  | .inl (.inr (.get _)) => some (some { deviceSession (drawnChallenge 1) with challenge := none })
  | o => serving 0 n o

def isUndefined : ((Sys.sum StoreSig).sum HttpSig).Op → Bool
  | .inl (.inl .undefined) => true
  | _ => false

theorem unanswered_of_isUndefined {o : ((Sys.sum StoreSig).sum HttpSig).Op} (h : isUndefined o = true) :
    ¬ Nonempty (((Sys.sum StoreSig).sum HttpSig).Ans o) := by
  unfold isUndefined at h
  split at h
  · exact fun ⟨x⟩ => nomatch x
  · cases h

/-- A refresh that is granted, and one of a session without a challenge. -/
theorem real_status_refresh :
    (∃ tr, Ends (dbscEventHandler (deviceExtern [drawnChallenge 1]) plainServer refreshMessage) tr ∧ Replies tr 200 ∧
      ((∃ status, RealStatus status ∧ ∀ status', Replies tr status' ↔ status' = status) ↔
        ¬ (RenewalFails (envEvents tr) ∧ Assembled tr) ∧
          ¬ EndsInNull (deviceExtern [drawnChallenge 1]) refreshMessage (envEvents tr))) ∧
    ∃ tr, Ends (dbscEventHandler (deviceExtern [drawnChallenge 1]) plainServer refreshMessage) tr ∧
      (∀ status, ¬ Replies tr status) ∧
      ((∃ status, RealStatus status ∧ ∀ status', Replies tr status' ↔ status' = status) ↔
        ¬ (RenewalFails (envEvents tr) ∧ Assembled tr) ∧
          ¬ EndsInNull (deviceExtern [drawnChallenge 1]) refreshMessage (envEvents tr)) := by
  constructor
  · have hplay :
      (follow (serving 0) 0 (dbscEventHandler (deviceExtern [drawnChallenge 1]) plainServer refreshMessage)).map
        (fun r => (r.1.filterMap statusOf, r.1.filterMap routedCode)) = some ([200], [-1]) := by
      decide +kernel
    obtain ⟨tr, hends, hroute, hreplies⟩ := exists_served hplay
    exact ⟨tr, hends, (hreplies 200).mpr List.mem_cons_self, real_status_iff _ _ rfl (.inr rfl) hends hroute⟩
  · have hplay :
      (stops servingNull 0 (dbscEventHandler (deviceExtern [drawnChallenge 1]) plainServer refreshMessage)).map
        (fun r => (isUndefined r.2, r.1.filterMap statusOf, r.1.filterMap routedCode)) = some (true, [], [-1]) := by
      decide +kernel
    obtain ⟨⟨tr, o⟩, hstops, hfacts⟩ := Option.map_eq_some_iff.mp hplay
    simp only [Prod.mk.injEq] at hfacts
    obtain ⟨hundefined, hstatuses, hcodes⟩ := hfacts
    have hends : Ends (dbscEventHandler (deviceExtern [drawnChallenge 1]) plainServer refreshMessage) tr :=
      .inr (stuck_stops hstops (unanswered_of_isUndefined hundefined))
    have hroute : Unrouted tr := unrouted_of_codes (by simp [hcodes])
    refine ⟨tr, hends, fun status hs => ?_, real_status_iff _ _ rfl (.inr rfl) hends hroute⟩
    rw [replies_iff, hstatuses] at hs
    exact List.not_mem_nil hs

/-- A refresh whose session the store does not take is answered with status 0. -/
theorem no_real_status : ¬ ∀ (L : Extern) (server : HttpServer) (hm : HttpMessage) (tr : List HttpEvent),
    untilNul hm.method = "POST" → (untilNul hm.uri = "/dbsc/register" ∨ untilNul hm.uri = "/dbsc/refresh") →
    Ends (dbscEventHandler L server hm) tr → Unrouted tr →
      ∃ status, RealStatus status ∧ ∀ status', Replies tr status' ↔ status' = status := by
  intro h
  have hplay :
    (follow (serving (-1)) 0 (dbscEventHandler (deviceExtern [drawnChallenge 1]) plainServer refreshMessage)).map
      (fun r => (r.1.filterMap statusOf, r.1.filterMap routedCode)) = some ([0], [-1]) := by
    decide +kernel
  obtain ⟨tr, hends, hroute, hreplies⟩ := exists_served hplay
  obtain ⟨status, hreal, honly⟩ := h _ _ _ tr rfl (.inr rfl) hends hroute
  obtain rfl := (honly 0).mp ((hreplies 0).mpr List.mem_cons_self)
  revert hreal
  unfold RealStatus
  decide

end OpenDbsc
