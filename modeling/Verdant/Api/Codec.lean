import Verdant.Binding.Error
import Verdant.Domain.JsonText
import Verdant.Library.Frames

/-!
# API failures and records

The failures of the API coordinator, the length framing of its records and the operation identities it accepts.  An
operation of the API starts with `api-` and has at most 80 bytes, so the identities derived from it (`child`) are identities
again and tell the operations apart.
-/

namespace Verdant.Api

open TextCodec Storage Access Binding

/-- Typed API failure; the accept and seal failures by their code. -/
inductive ApiError where
  | unauthenticated
  | invalid (what : String)
  | limit (what : String)
  | conflict (what : String)
  | missing (what : String)
  | sealedMutation
  | cancelled
  | recoveryRestricted
  | unknown (operation : OperationId) (detail : String)
  | access (error : AccessError)
  | binding (error : BindingError)
  | accept (code : String)
  | seal (code : String)
  | storage (error : StorageError)
  deriving DecidableEq

/-- The outcome of a write stays open. -/
def ApiError.isUnknown : ApiError → Bool
  | .unknown _ _ => true
  | _ => false

/-! ### Numbers and frames -/

/-- A number in its one spelling. -/
def number {α : Type} (parse : String → Option α) (spell : α → String) (raw : String) : Except ApiError α :=
  match parse raw with
  | none => .error (.invalid "API integer")
  | some n => if spell n ≠ raw then .error (.invalid "API canonical integer") else .ok n

def numberUsize (raw : String) : Except ApiError Nat := number parseU64 Nat.repr raw
def numberI64 (raw : String) : Except ApiError Int := number parseI64 toString raw
def numberU32 (raw : String) : Except ApiError UInt32 := number parseUInt32 (fun n => Nat.repr n.toNat) raw

def frameWords : FrameWords ApiError where
  bytes := .limit "API encoded bytes"
  fields := .limit "API encoded fields"
  framing := .invalid "API framing"
  boundary := .invalid "API field boundary"

def encode (fields : List String) : String := encodeFrames fields

def decode (raw : String) (bytes fields : Nat) : Except ApiError (List String) :=
  decodeFrames frameWords numberUsize raw bytes fields

theorem numberUsize_repr {n : Nat} (h : n < 2 ^ 64) : numberUsize (Nat.repr n) = .ok n := by
  unfold numberUsize number
  rw [parseU64_repr h]
  simp

theorem numberI64_repr {n : Nat} (h : n < 2 ^ 63) : numberI64 (Nat.repr n) = .ok (n : Int) := by
  have hspell : toString (n : Int) = Nat.repr n := rfl
  unfold numberI64 number
  rw [parseI64_repr h]
  simp [hspell]

theorem numberI64_toString {n : Int} {raw : String} (h : numberI64 raw = .ok n) : toString n = raw := by
  unfold numberI64 number at h
  split at h
  · exact nomatch h
  split at h
  · exact nomatch h
  · rename_i hspell
    cases h
    exact not_not.1 hspell

theorem decode_encode {fields : List String} {bytes limit : Nat} (hbytes : (encode fields).utf8ByteSize ≤ bytes)
    (hlimit : fields.length ≤ limit) (hbound : bytes < 2 ^ 64) : decode (encode fields) bytes limit = .ok fields :=
  decodeFrames_encodeFrames hbytes hlimit fun _ hn => numberUsize_repr (Nat.lt_of_le_of_lt hn hbound)

/-- The text of a quoted JSON column. -/
def textColumn (raw : String) : Except ApiError String := do
  match ← (unquoteText raw).mapError fun _ => .binding (unreadable s!"quoted binding column malformed: '{raw}'") with
  | none => .error (.invalid "NULL API content")
  | some json =>
    match Value.fromJson json with
    | .error _ => .error (.invalid "API JSON")
    | .ok (.text text) => .ok text
    | .ok _ => .error (.invalid "API content type")

theorem textColumn_toJson (text : String) : textColumn (sqlQuote (Value.text text).toJson) = .ok text := by
  unfold textColumn
  rw [unquoteText_sqlQuote]
  simp only [Except.mapError, Result.ok_bind, Json.fromJson_toJson]

/-! ### Operations -/

def startsWith (front raw : String) : Bool := front.toList.isPrefixOf raw.toList

theorem startsWith_append (front rest : String) : startsWith front (front ++ rest) = true := by
  unfold startsWith
  rw [List.isPrefixOf_iff_prefix, String.toList_append]
  exact List.prefix_append _ _

def operation (raw : String) : Except ApiError OperationId :=
  if startsWith "api-" raw = false ∨ 80 < raw.utf8ByteSize then
    .error (.invalid "API operation namespace/length")
  else (OperationId.parse raw).mapError fun _ => .invalid "API operation"

/-- The operations of the API. -/
def IsApi (op : OperationId) : Prop := startsWith "api-" op.text = true ∧ op.text.utf8ByteSize ≤ 80

instance (op : OperationId) : Decidable (IsApi op) := by
  unfold IsApi
  infer_instance

theorem operation_of_isApi {op : OperationId} (h : IsApi op) : operation op.text = .ok op := by
  have hlen := h.2
  unfold operation
  rw [if_neg, OperationId.parse_text]
  · rfl
  · rintro (hfront | hlong)
    · rw [h.1] at hfront
      exact nomatch hfront
    · omega

theorem operation_eq_ok {raw : String} {op : OperationId} (h : operation raw = .ok op) : op.text = raw ∧ IsApi op := by
  unfold operation at h
  rw [Result.ite_error_eq_ok, Result.mapError_eq_ok] at h
  obtain ⟨hshape, hparse⟩ := h
  have htext := OperationId.text_of_parse hparse
  have hfront : startsWith "api-" raw = true := by
    by_contra hnot
    exact hshape (.inl (by simpa using hnot))
  have hlen : raw.utf8ByteSize ≤ 80 := by
    by_contra hnot
    exact hshape (.inr (by omega))
  exact ⟨htext, by rw [htext]; exact hfront, by rw [htext]; exact hlen⟩

/-- The identity of a write of the API under an operation. -/
def child (front : String) (op : OperationId) : Except ApiError OperationId := do
  let _ ← operation op.text
  (OperationId.parse (front ++ "-" ++ op.text)).mapError fun _ => .invalid "child operation"

theorem child_eq_ok {front : String} {op id : OperationId} (h : child front op = .ok id) :
    id.text = front ++ "-" ++ op.text ∧ IsApi op := by
  unfold child at h
  obtain ⟨_, hop, h⟩ := Result.bind_eq_ok.1 h
  rw [Result.mapError_eq_ok] at h
  obtain ⟨htext, hapi⟩ := operation_eq_ok hop
  obtain rfl := OperationId.ext_text htext
  exact ⟨OperationId.text_of_parse h, hapi⟩

/-- The identities of two operations under one front differ. -/
theorem child_text_injective {front : String} {a b : OperationId}
    (h : front ++ "-" ++ a.text = front ++ "-" ++ b.text) : a = b := by
  apply OperationId.ext_text
  apply String.toList_injective
  have hlists := congrArg String.toList h
  simp only [String.toList_append, List.append_assoc] at hlists
  exact List.append_cancel_left (List.append_cancel_left hlists)

end Verdant.Api
