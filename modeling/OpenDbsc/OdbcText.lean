/-
`odbc_get_text` against drivers that deliver a column in pieces.

`Delivers` is what `SQLGetData` may answer for a buffer of 512 bytes, given
what is left of the column: a piece of 511 while more than that is left, with
an indicator of either kind, and then the rest. An error may come instead, at
any time. Each turn of the loop but the last takes 511 bytes, so a column is
read in one turn more than it has multiples of 511.
-/
import OpenDbsc.Effects.Total
import OpenDbsc.Odbc

namespace OpenDbsc

open Effects Prog

/-- `SQL_NO_TOTAL`. -/
def sqlNoTotal : Int := -4

/-- What `SQLGetData` answers: the return code, the indicator and the buffer. -/
abbrev ColumnReply := SqlReturn × Int × { chunk : List Char // chunk.length = 512 }

/-- A reply to `SQLGetData`, and what it leaves of the column; the bytes
behind a piece are not looked at. -/
inductive Delivers : Option (List Char) → ColumnReply → Option (List Char) → Prop
  | error {value ind chunk value'} : Delivers value (.error, ind, chunk) value'
  | null {rc chunk} : rc = .success ∨ rc = .successWithInfo → Delivers none (rc, sqlNullData, chunk) none
  | more {rest ind chunk} : 511 < rest.length → ind = rest.length ∨ ind = sqlNoTotal →
      chunk.val.take 511 = rest.take 511 → Delivers (some rest) (.successWithInfo, ind, chunk) (some (rest.drop 511))
  | last {rest chunk} : rest.length ≤ 511 → rest <+: chunk.val →
      Delivers (some rest) (.success, rest.length, chunk) (some [])

/-- A driver, by what is left of column `col`: no other call changes it. -/
def columnDriver (col : Nat) : Comp Sys OdbcSig (Option (List Char))
  | .getData col', value, tr, reply, value' =>
    tr = [] ∧ if col' = col then Delivers value reply value' else value' = value
  | _, value, tr, _, value' => tr = [] ∧ value' = value

/-- An error of the driver, or an allocation that fails. -/
def IsFailure : Event (Sys.sum OdbcSig) → Prop
  | ⟨.inl (.malloc _), ok⟩ => ok = false
  | ⟨.inr (.getData _), reply⟩ => reply.1 = .error
  | _ => False

/-! ## One turn -/

/-- What a turn does with the reply. -/
def odbcTake (col turns : Nat) (buf : List Char) : ColumnReply → OdbcProg (Int × Option (List Char))
  | (rc, ind, chunk) => do
    if rc = .error then return (-1, none)
    if ind = sqlNullData then return (0, none)
    let got := odbcChunkLength ind
    if !(← (malloc (buf.length + got + 1)).lift) then return (-1, none)
    let buf := buf ++ chunk.val.take got
    if rc ≠ .successWithInfo then return (0, some buf)
    odbcGetText col turns buf

variable {col turns : Nat} {buf rest : List Char} {ind : Int} {chunk : { chunk : List Char // chunk.length = 512 }}

theorem odbcGetText_succ :
    odbcGetText col (turns + 1) buf = odbcCall (.getData col) >>= odbcTake col turns buf := rfl

theorem odbcTake_error : odbcTake col turns buf (.error, ind, chunk) = pure (-1, none) := by simp [odbcTake]

theorem odbcTake_null {rc : SqlReturn} (hrc : rc = .success ∨ rc = .successWithInfo) :
    odbcTake col turns buf (rc, sqlNullData, chunk) = pure (0, none) := by
  rcases hrc with rfl | rfl <;> simp [odbcTake]

/-- Either indicator says that the whole buffer was used. -/
theorem odbcTake_more (hlong : 511 < rest.length) (hind : ind = rest.length ∨ ind = sqlNoTotal)
    (hchunk : chunk.val.take 511 = rest.take 511) :
    odbcTake col turns buf (.successWithInfo, ind, chunk) = (malloc (buf.length + 511 + 1)).lift >>= fun ok =>
      if ok then odbcGetText col turns (buf ++ rest.take 511) else pure (-1, none) := by
  have hnull : ind ≠ sqlNullData := by
    unfold sqlNoTotal at hind
    unfold sqlNullData
    omega
  have hgot : odbcChunkLength ind = 511 := by
    unfold sqlNoTotal at hind
    unfold odbcChunkLength
    rw [if_pos (by omega)]
  simp only [odbcTake, hgot, hchunk, reduceCtorEq, if_false, if_neg hnull]
  congr 1
  funext ok
  cases ok <;> simp

theorem odbcTake_last (hshort : rest.length ≤ 511) (hchunk : rest <+: chunk.val) :
    odbcTake col turns buf (.success, rest.length, chunk) = (malloc (buf.length + rest.length + 1)).lift >>= fun ok =>
      if ok then pure (0, some (buf ++ rest)) else pure (-1, none) := by
  have hnull : (rest.length : Int) ≠ sqlNullData := by
    unfold sqlNullData
    omega
  have hgot : odbcChunkLength rest.length = rest.length := by
    unfold odbcChunkLength
    rw [if_neg (by omega), Int.toNat_natCast]
  have htake : chunk.val.take rest.length = rest := (List.prefix_iff_eq_take.mp hchunk).symm
  simp only [odbcTake, hgot, htake, reduceCtorEq, if_false, if_neg hnull]
  congr 1
  funext ok
  cases ok <;> simp

/-! ## A whole column -/

theorem columnDriver_getData {tr : List (Event Sys)} {reply : ColumnReply} {value value' : Option (List Char)} :
    columnDriver col (.getData col) value tr reply value' ↔ tr = [] ∧ Delivers value reply value' := by
  simp [columnDriver]

/-- The loop ends within its turns. -/
theorem odbcGetText_returns {value : Option (List Char)} (hturns : (value.getD []).length / 511 < turns) :
    Total AnyAnswer (columnDriver col) (odbcGetText col turns buf) (fun _ _ => True) value := by
  induction turns generalizing buf value with
  | zero => omega
  | succ turns ih =>
    rw [odbcGetText_succ, total_bind, odbcCall, total_call]
    intro tr reply value' hcall _
    obtain ⟨-, hdelivers⟩ := columnDriver_getData.mp hcall
    cases hdelivers with
    | error => rw [odbcTake_error]; trivial
    | null hrc => rw [odbcTake_null hrc]; trivial
    | @more rest ind chunk hlong hind hchunk =>
      rw [odbcTake_more hlong hind hchunk, total_bind, total_lift]
      refine anyAnswer_malloc.mpr ⟨ih ?_, trivial⟩
      simp only [Option.getD_some, List.length_drop] at hturns ⊢
      omega
    | last hshort hchunk =>
      rw [odbcTake_last hshort hchunk, total_bind, total_lift]
      exact anyAnswer_malloc.mpr ⟨trivial, trivial⟩

theorem exec_malloc {σ α : Type} {B : Comp Sys OdbcSig σ} {n : Nat} {f : Bool → OdbcProg α} {st st' : σ}
    {tr : List (Event (Sys.sum OdbcSig))} {a : α} :
    Exec B ((malloc n).lift >>= f) st tr a st' ↔
      ∃ ok tr', tr = ⟨.inl (.malloc n), ok⟩ :: tr' ∧ Exec B (f ok) st tr' a st' := exec_env

/-- What a part of a run of `odbc_get_text` returns for the text `text`, and why it fails. -/
def Reads (text : Option (List Char)) (tr : List (Event (Sys.sum OdbcSig))) (r : Int × Option (List Char)) : Prop :=
  (r = (-1, none) ∧ ∃ e ∈ tr, IsFailure e) ∨ (r = (0, text) ∧ ∀ e ∈ tr, ¬ IsFailure e)

theorem Reads.cons {e : Event (Sys.sum OdbcSig)} {text : Option (List Char)} {tr : List (Event (Sys.sum OdbcSig))}
    {r : Int × Option (List Char)} (h : Reads text tr r) (he : ¬ IsFailure e) : Reads text (e :: tr) r := by
  simpa [Reads, he] using h

theorem Reads.reply {reply : ColumnReply} {text : Option (List Char)} {tr : List (Event (Sys.sum OdbcSig))}
    {r : Int × Option (List Char)} (h : Reads text tr r) (hrc : reply.1 ≠ .error) :
    Reads text (⟨.inr (.getData col), reply⟩ :: tr) r := h.cons hrc

theorem Reads.malloc {n : Nat} {text : Option (List Char)} {tr : List (Event (Sys.sum OdbcSig))}
    {r : Int × Option (List Char)} (h : Reads text tr r) : Reads text (⟨.inl (.malloc n), true⟩ :: tr) r :=
  h.cons (by simp [IsFailure])

theorem reads_failure {e : Event (Sys.sum OdbcSig)} {text : Option (List Char)} (he : IsFailure e) :
    Reads text [e] (-1, none) := by
  simp [Reads, he]

theorem reads_nil {text : Option (List Char)} : Reads text [] (0, text) := by simp [Reads]

/-- What the loop returns after `buf`, and why it fails. -/
theorem odbcGetText_reads {value value' : Option (List Char)} {tr : List (Event (Sys.sum OdbcSig))}
    {r : Int × Option (List Char)} (hturns : (value.getD []).length / 511 < turns)
    (h : Exec (columnDriver col) (odbcGetText col turns buf) value tr r value') :
    Reads (value.map (buf ++ ·)) tr r := by
  induction turns generalizing buf value tr with
  | zero => omega
  | succ turns ih =>
    rw [odbcGetText_succ, exec_bind] at h
    obtain ⟨tr₁, reply, value₁, tr₂, rfl, hcall, htake⟩ := h
    obtain ⟨tr₀, rfl, hB⟩ := exec_call.mp hcall
    obtain ⟨rfl, hdelivers⟩ := columnDriver_getData.mp hB
    rw [List.map_nil, List.nil_append, List.singleton_append]
    cases hdelivers with
    | error =>
      rw [odbcTake_error, exec_pure] at htake
      obtain ⟨rfl, rfl, -⟩ := htake
      exact reads_failure rfl
    | null hrc =>
      rw [odbcTake_null hrc, exec_pure] at htake
      obtain ⟨rfl, rfl, -⟩ := htake
      exact reads_nil.reply (by rcases hrc with rfl | rfl <;> simp)
    | @more rest ind chunk hlong hind hchunk =>
      rw [odbcTake_more hlong hind hchunk, exec_malloc] at htake
      obtain ⟨ok, tr₃, rfl, hrest⟩ := htake
      refine Reads.reply ?_ (by simp)
      cases ok with
      | false =>
        obtain ⟨rfl, rfl, -⟩ := exec_pure.mp hrest
        exact reads_failure rfl
      | true =>
        have hfewer : ((some (rest.drop 511)).getD []).length / 511 < turns := by
          simp only [Option.getD_some, List.length_drop] at hturns ⊢
          omega
        have hreads := ih hfewer hrest
        rw [Option.map_some, List.append_assoc, List.take_append_drop] at hreads
        exact hreads.malloc
    | last hshort hchunk =>
      rw [odbcTake_last hshort hchunk, exec_malloc] at htake
      obtain ⟨ok, tr₃, rfl, hrest⟩ := htake
      refine Reads.reply ?_ (by simp)
      cases ok with
      | false =>
        obtain ⟨rfl, rfl, -⟩ := exec_pure.mp hrest
        exact reads_failure rfl
      | true =>
        obtain ⟨rfl, rfl, -⟩ := exec_pure.mp hrest
        exact reads_nil.malloc

/-- **A column is read whole**, null as null, unless the driver reports an
error or an allocation fails; and the loop always ends. -/
theorem odbcGetText_exact {value : Option (List Char)} (hturns : (value.getD []).length / 511 < turns) :
    Total AnyAnswer (columnDriver col) (odbcGetText col turns []) (fun _ _ => True) value ∧
    ∀ tr r value', Exec (columnDriver col) (odbcGetText col turns []) value tr r value' →
      (r = (-1, none) ∧ ∃ e ∈ tr, IsFailure e) ∨ (r = (0, value) ∧ ∀ e ∈ tr, ¬ IsFailure e) := by
  refine ⟨odbcGetText_returns hturns, fun tr r value' h => ?_⟩
  have hreads := odbcGetText_reads hturns h
  simpa [Reads] using hreads

/-- A public key of 600 bytes, in two turns. -/
theorem odbcGetText_exact_key :
    Total AnyAnswer (columnDriver 4) (odbcGetText 4 2 []) (fun _ _ => True) (some (List.replicate 600 'k')) ∧
    ∀ tr r value', Exec (columnDriver 4) (odbcGetText 4 2 []) (some (List.replicate 600 'k')) tr r value' →
      (r = (-1, none) ∧ ∃ e ∈ tr, IsFailure e) ∨
        (r = (0, some (List.replicate 600 'k')) ∧ ∀ e ∈ tr, ¬ IsFailure e) :=
  odbcGetText_exact (by rw [Option.getD_some, List.length_replicate]; decide)

end OpenDbsc
