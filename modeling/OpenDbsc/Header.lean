/-
`protocol/header.c`: the serializers of the session headers.

Each measures its output with `snprintf` first and allocates that much. Here
both passes are one; `TwoPass` has them apart, and with them the texts of
`INT_MAX` bytes and more that `snprintf` cannot count.
-/
import OpenDbsc.Sys

namespace OpenDbsc

open Effects

/-- `join_strings`: the strings with a separator between them. -/
def joinStrings (strings : List CStr) (sep : Char) : Prog Sys (Option CStr) := do
  if strings.length = 0 then
    if ← malloc 1 then return some [] else return none
  let total := (strings.map List.length).sum + (strings.length - 1)
  if ← malloc (total + 1) then return some ([sep].intercalate strings) else return none

/-- `;name="value"`; a value that is null or empty is left out. -/
def quotedParam (name : CStr) (value : Option CStr) : CStr :=
  match value with
  | none => []
  | some value => if value = [] then [] else ";" ++ name ++ "=\"" ++ value ++ "\""

def registrationSerialize (algorithms : List CStr)
    (path challenge authorization providerKey providerSessionId providerUrl : Option CStr) :
    Prog Sys (Option CStr) := do
  let some algs ← joinStrings algorithms ' ' | return none
  let pieces := ["(" ++ algs ++ ")", quotedParam "path" path, quotedParam "challenge" challenge,
    quotedParam "authorization" authorization, quotedParam "provider_key" providerKey,
    quotedParam "provider_session_id" providerSessionId, quotedParam "provider_url" providerUrl]
  let n := (pieces.map List.length).sum
  if ← malloc (n + 1) then return some pieces.flatten else return none

def challengeSerialize (value sessionId : Option CStr) : Prog Sys (Option CStr) :=
  match value with
  | none => pure none
  | some value => do
    let pieces := ["\"" ++ value ++ "\"", quotedParam "id" sessionId]
    let n := (pieces.map List.length).sum
    if ← malloc (n + 1) then return some pieces.flatten else return none

/-! ## With every allocation succeeding -/

@[simp] theorem assuming_joinStrings (strings : List CStr) (sep : Char) :
    (joinStrings strings sep).assuming allocOk = pure (some ([sep].intercalate strings)) := by
  unfold joinStrings
  by_cases h : strings.length = 0
  · rw [List.eq_nil_of_length_eq_zero h]
    simp
  · simp [h]

/-- The text of the registration header. -/
def registrationText (algorithms : List CStr)
    (path challenge authorization providerKey providerSessionId providerUrl : Option CStr) : CStr :=
  "(" ++ [' '].intercalate algorithms ++ ")" ++ quotedParam "path" path ++ quotedParam "challenge" challenge ++
    quotedParam "authorization" authorization ++ quotedParam "provider_key" providerKey ++
    quotedParam "provider_session_id" providerSessionId ++ quotedParam "provider_url" providerUrl

@[simp] theorem assuming_registrationSerialize (algorithms : List CStr)
    (path challenge authorization providerKey providerSessionId providerUrl : Option CStr) :
    (registrationSerialize algorithms path challenge authorization providerKey providerSessionId
      providerUrl).assuming allocOk =
      pure (some (registrationText algorithms path challenge authorization providerKey providerSessionId
        providerUrl)) := by
  simp [registrationSerialize, registrationText]

/-- The text of the challenge header. -/
def challengeText (value : CStr) (sessionId : Option CStr) : CStr :=
  "\"" ++ value ++ "\"" ++ quotedParam "id" sessionId

@[simp] theorem assuming_challengeSerialize (value sessionId : Option CStr) :
    (challengeSerialize value sessionId).assuming allocOk = pure (value.map fun v => challengeText v sessionId) := by
  cases value with
  | none => rfl
  | some value => simp [challengeSerialize, challengeText]

end OpenDbsc
