import Verdant.Binding.Error
import Verdant.Domain.JsonText
import Verdant.Library.Frames

/-!
# Seal failures and records

The failures of the seal module and the length framing of its records.  A record of at most so many bytes and fields is
accepted exactly when it is the framing of its fields (`decode_eq_ok`).
-/

namespace Verdant.Seal

open TextCodec Storage Access Binding

inductive SealError where
  | invalid (what : String)
  | missing (detail : String)
  | changed (detail : String)
  | status (detail : String)
  | cycle
  | limit (what : String)
  | sealedMutation
  | released
  | conflict (detail : String)
  | unknown (operation : OperationId) (detail : String)
  | hashTool (detail : String)
  | io (detail : String)
  | storage (error : StorageError)
  | binding (error : BindingError)
  | access (error : AccessError)
  | native (detail : String)
  deriving DecidableEq

def maxNodes : Nat := 64
def maxDepth : Nat := 16
def maxClosureBytes : Nat := 262144
def maxManifestBytes : Nat := 60000
def maxArtifactBytes : Nat := 2097152
def maxNativeRefs : Nat := 8
def maxLiveSeals : Nat := 32
def maxHistory : Nat := 256

/-! ### Framing -/

def frameWords : FrameWords SealError where
  bytes := .limit "encoded bytes"
  fields := .limit "encoded fields"
  framing := .invalid "field length"
  boundary := .invalid "field boundary"

/-- `number::<T>`, by the way `T` is parsed and spelled. -/
def number {α : Type} (parse : String → Option α) (spell : α → String) : String → Except SealError α :=
  spelled parse spell (.invalid "integer") (.invalid "noncanonical integer")

def numberUsize : String → Except SealError Nat := number parseU64 Nat.repr
def numberU64 : String → Except SealError UInt64 :=
  number (fun s => (parseU64 s).map UInt64.ofNat) fun n => Nat.repr n.toNat
def numberU32 : String → Except SealError UInt32 := number parseUInt32 fun n => Nat.repr n.toNat

def encode (fields : List String) : String := encodeFrames fields

def decode (raw : String) (maxBytes maxFields : Nat) : Except SealError (List String) :=
  decodeFrames frameWords numberUsize raw maxBytes maxFields

theorem numberUsize_repr {n : Nat} (h : n < 2 ^ 64) : numberUsize (Nat.repr n) = .ok n :=
  spelled_eq_ok.2 ⟨parseU64_repr h, rfl⟩

@[simp]
theorem numberU64_repr (n : UInt64) : numberU64 (Nat.repr n.toNat) = .ok n := by
  have hparse : (parseU64 (Nat.repr n.toNat)).map UInt64.ofNat = some n := by
    rw [parseU64_repr n.toNat_lt]
    simp
  unfold numberU64 number
  rw [spelled_eq_ok]
  exact ⟨hparse, rfl⟩

@[simp]
theorem numberU32_repr (n : UInt32) : numberU32 (Nat.repr n.toNat) = .ok n :=
  spelled_eq_ok.2 ⟨parseUInt32_repr n, rfl⟩

theorem repr_of_numberU64 {s : String} {n : UInt64} (h : numberU64 s = .ok n) : Nat.repr n.toNat = s := by
  unfold numberU64 number at h
  exact (spelled_eq_ok.1 h).2

theorem repr_of_numberUsize {s : String} {n : Nat} (h : numberUsize s = .ok n) : Nat.repr n = s := (spelled_eq_ok.1 h).2

/-- The accepted texts are the framings within the limits. -/
theorem decode_eq_ok {raw : String} {maxBytes maxFields : Nat} (hbound : maxBytes < 2 ^ 64) {fields : List String} :
    decode raw maxBytes maxFields = .ok fields ↔
      encode fields = raw ∧ raw.utf8ByteSize ≤ maxBytes ∧ fields.length ≤ maxFields := by
  refine decodeFrames_eq_ok (fun n hn => ?_) fun s n => repr_of_numberUsize
  exact numberUsize_repr (Nat.lt_of_le_of_lt hn hbound)

theorem decode_encode {fields : List String} {maxBytes maxFields : Nat} (hbytes : (encode fields).utf8ByteSize ≤ maxBytes)
    (hfields : fields.length ≤ maxFields) (hbound : maxBytes < 2 ^ 64) :
    decode (encode fields) maxBytes maxFields = .ok fields := (decode_eq_ok hbound).2 ⟨rfl, hbytes, hfields⟩

/-! ### Sizes -/

/-- A frame has its field, a colon and the digits of its length. -/
theorem utf8ByteSize_frame (field : String) :
    (frame field).utf8ByteSize = (Nat.repr field.utf8ByteSize).utf8ByteSize + 1 + field.utf8ByteSize := by
  have hone : (":" : String).utf8ByteSize = 1 := by decide
  unfold frame
  rw [String.utf8ByteSize_append, String.utf8ByteSize_append, hone]

theorem utf8ByteSize_encode (fields : List String) :
    (encode fields).utf8ByteSize = (fields.map fun f => (frame f).utf8ByteSize).sum := by
  unfold encode
  rw [utf8ByteSize_eq]
  induction fields with
  | nil => rfl
  | cons field fields ih =>
    rw [toList_encodeFrames_cons, List.map_append, List.sum_append, ih, ← utf8ByteSize_eq]
    rfl

/-- Fields below a power of ten have frames with so many digits at most. -/
theorem utf8ByteSize_frame_le {field : String} {n k : Nat} (hk : 0 < k) (hn : field.utf8ByteSize ≤ n) (hpow : n < 10 ^ k) :
    (frame field).utf8ByteSize ≤ k + 1 + n := by
  have hdigits := utf8ByteSize_repr_le (n := field.utf8ByteSize) hk (Nat.lt_of_le_of_lt hn hpow)
  rw [utf8ByteSize_frame]
  omega

/-- Several fields below a power of ten. -/
theorem utf8ByteSize_encode_le {fields : List String} {n k : Nat} (hk : 0 < k) (hn : ∀ f ∈ fields, f.utf8ByteSize ≤ n)
    (hpow : n < 10 ^ k) : (encode fields).utf8ByteSize ≤ fields.length * (k + 1 + n) := by
  have hsum := List.sum_le_card_nsmul (fields.map fun f => (frame f).utf8ByteSize) (k + 1 + n) fun size hsize => by
    obtain ⟨f, hf, rfl⟩ := List.mem_map.1 hsize
    exact utf8ByteSize_frame_le hk (hn f hf) hpow
  rw [List.length_map, smul_eq_mul] at hsum
  rw [utf8ByteSize_encode]
  exact hsum

/-! ### Inert text -/

/-- `char::is_control`. -/
def isControl (c : Char) : Bool := c.val < 32 || (127 ≤ c.val && c.val < 160)

/-- The texts `text` returns. -/
def IsInert (raw : String) : Prop := raw ≠ "" ∧ raw.utf8ByteSize ≤ 256 ∧ raw.toList.any isControl = false

instance (raw : String) : Decidable (IsInert raw) := by
  unfold IsInert
  infer_instance

def text (raw : String) : Except SealError String :=
  if IsInert raw then .ok raw else .error (.invalid "inert reference text")

theorem text_eq_ok {raw out : String} : text raw = .ok out ↔ IsInert raw ∧ out = raw := by
  unfold text
  by_cases h : IsInert raw
  · rw [if_pos h, Except.ok.injEq]
    exact ⟨fun heq => ⟨h, heq.symm⟩, fun heq => heq.2.symm⟩
  · rw [if_neg h]
    exact ⟨fun heq => (nomatch heq), fun heq => absurd heq.1 h⟩

end Verdant.Seal
