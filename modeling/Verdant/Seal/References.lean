import Mathlib.Data.List.Destutter
import Mathlib.Data.Prod.Lex
import Verdant.Binding.Rows
import Verdant.Seal.Codec

/-!
# Seal references

What a seal names: rows of the outbox by operation and sequence, the structural content they carry with its own references,
their digests, and the artifacts of a native checkpoint.  Each has a text, and is read from that text alone
(`RowKey.decode_eq_ok`, `RowRef.decode_encode`, `NativeRef.decode_encode`).
-/

namespace Verdant.Seal

open TextCodec Storage Access Binding

/-! ### Digests -/

def IsDigest (raw : String) : Prop :=
  raw.utf8ByteSize = 64 ∧ raw.toList.all (fun c => c.isDigit || ('a' ≤ c && c ≤ 'f')) = true

instance (raw : String) : Decidable (IsDigest raw) := by
  unfold IsDigest
  infer_instance

structure Digest where
  text : String
  valid : IsDigest text
  deriving DecidableEq

def Digest.parse (raw : String) : Except SealError Digest :=
  if h : IsDigest raw then .ok ⟨raw, h⟩ else .error (.invalid "SHA-256 hex")

@[simp]
theorem Digest.parse_text (digest : Digest) : Digest.parse digest.text = .ok digest := dif_pos digest.valid

theorem Digest.parse_eq_ok {raw : String} {digest : Digest} : Digest.parse raw = .ok digest ↔ digest.text = raw := by
  constructor
  · intro h
    unfold Digest.parse at h
    split at h
    · cases h
      rfl
    · exact nomatch h
  · rintro rfl
    exact digest.parse_text

theorem Digest.ext_text {a b : Digest} (h : a.text = b.text) : a = b := by
  cases a
  cases b
  cases h
  rfl

/-- The system tool: what it answers on an input, and how it is cited. -/
structure Sha256 where
  tool : ByteArray → Except SealError Digest
  reference : String

def Sha256.hash (sha : Sha256) (bytes : ByteArray) : Except SealError Digest :=
  if maxArtifactBytes < bytes.size then .error (.limit "hash input bytes") else sha.tool bytes

/-! ### Rows -/

structure RowKey where
  operation : OperationId
  sequence : UInt64
  nonzero : sequence ≠ 0
  deriving DecidableEq

namespace RowKey

def new (operation : OperationId) (sequence : UInt64) : Except SealError RowKey :=
  if h : sequence = 0 then .error (.invalid "row sequence") else .ok ⟨operation, sequence, h⟩

/-- Rows are ordered by operation, then by sequence. -/
def order (key : RowKey) : String ×ₗ Nat := toLex (key.operation.text, key.sequence.toNat)

theorem order_injective : Function.Injective order := by
  rintro ⟨a, m, hm⟩ ⟨b, n, hn⟩ h
  obtain ⟨hoperation, hsequence⟩ := Prod.mk.inj (toLex.injective h)
  cases OperationId.ext_text hoperation
  cases UInt64.toNat_inj.1 hsequence
  rfl

instance : LinearOrder RowKey := LinearOrder.lift' order order_injective

def encode (key : RowKey) : String := Seal.encode [key.operation.text, Nat.repr key.sequence.toNat]

def decode (raw : String) : Except SealError RowKey := do
  match ← Seal.decode raw 512 2 with
  | [operation, sequence] =>
    let operation ← (OperationId.parse operation).mapError fun _ => .invalid "row operation"
    let sequence ← numberU64 sequence
    new operation sequence
  | _ => .error (.invalid "row key")

theorem utf8ByteSize_encode (key : RowKey) : key.encode.utf8ByteSize ≤ 156 := by
  have hoperation := utf8ByteSize_frame_le (k := 3) (by decide) key.operation.valid.2.1 (by decide)
  have hsequence := utf8ByteSize_frame_le (k := 2) (by decide)
    (utf8ByteSize_repr_le (k := 20) (by decide) (Nat.lt_trans key.sequence.toNat_lt (by decide))) (by decide)
  have hmax : maxIdLen = 128 := rfl
  unfold encode
  rw [Seal.utf8ByteSize_encode]
  simp only [List.map_cons, List.map_nil, List.sum_cons, List.sum_nil]
  omega

/-- A row key is read from its text alone. -/
theorem decode_eq_ok {raw : String} {key : RowKey} : decode raw = .ok key ↔ key.encode = raw := by
  constructor
  · intro h
    unfold decode at h
    obtain ⟨fields, hfields, h⟩ := Result.bind_eq_ok.1 h
    have hraw := ((Seal.decode_eq_ok (by decide)).1 hfields).1
    split at h
    · rename_i operation sequence
      obtain ⟨id, hid, h⟩ := Result.bind_eq_ok.1 h
      obtain ⟨n, hn, h⟩ := Result.bind_eq_ok.1 h
      have hspell := repr_of_numberU64 hn
      unfold new at h
      split at h
      · exact nomatch h
      cases h
      unfold encode
      rw [OperationId.text_of_parse (Result.mapError_eq_ok.1 hid), hspell]
      exact hraw
    · exact nomatch h
  · rintro rfl
    have hframe : Seal.decode key.encode 512 2 = .ok [key.operation.text, Nat.repr key.sequence.toNat] :=
      Seal.decode_encode (Nat.le_trans key.utf8ByteSize_encode (by decide : 156 ≤ 512)) (by simp) (by decide)
    unfold decode
    rw [hframe, Result.ok_bind]
    simp only [OperationId.parse_text, Except.mapError, Result.ok_bind, numberU64_repr, new, dif_neg key.nonzero]

@[simp]
theorem decode_encode (key : RowKey) : decode key.encode = .ok key := decode_eq_ok.2 rfl

end RowKey

/-! ### Content -/

/-- `sort` and `dedup`. -/
def sortDedup {α : Type} [LinearOrder α] (xs : List α) : List α := (xs.insertionSort (· ≤ ·)).destutter (· ≠ ·)

theorem length_sortDedup_le {α : Type} [LinearOrder α] (xs : List α) : (sortDedup xs).length ≤ xs.length := by
  have hsub := (List.destutter_sublist (· ≠ ·) (xs.insertionSort (· ≤ ·))).length_le
  rwa [List.length_insertionSort] at hsub

/-- Structural application content; its references live in the durable bytes. -/
structure ContentNode where
  payload : String
  children : List RowKey

namespace ContentNode

def new (payload : String) (children : List RowKey) : Except SealError ContentNode :=
  if 16384 < payload.utf8ByteSize ∨ maxNodes < children.length then .error (.limit "content node")
  else .ok ⟨payload, sortDedup children⟩

def value (node : ContentNode) : Value :=
  .text (encode ["verdant-content-v1", "valid-structural", node.payload, encode (node.children.map RowKey.encode)])

/-- The text of the references of a new node. -/
theorem utf8ByteSize_children_le {keys : List RowKey} (h : keys.length ≤ maxNodes) :
    (encode ((sortDedup keys).map RowKey.encode)).utf8ByteSize ≤ 10240 := by
  have hsize : ∀ f ∈ (sortDedup keys).map RowKey.encode, f.utf8ByteSize ≤ 156 := by
    intro f hf
    obtain ⟨key, -, rfl⟩ := List.mem_map.1 hf
    exact key.utf8ByteSize_encode
  have hsum := utf8ByteSize_encode_le (k := 3) (by decide) hsize (by decide)
  have hlength := length_sortDedup_le keys
  have hmax : maxNodes = 64 := rfl
  rw [List.length_map] at hsum
  omega

/-- The text of a content row is within the limit of its readers. -/
theorem utf8ByteSize_content_le {payload : String} {keys : List RowKey} (hpayload : payload.utf8ByteSize ≤ 16384)
    (h : keys.length ≤ maxNodes) :
    (encode ["verdant-content-v1", "valid-structural", payload, encode ((sortDedup keys).map RowKey.encode)]).utf8ByteSize ≤
      maxClosureBytes := by
  have hversion : (frame "verdant-content-v1").utf8ByteSize ≤ 2 + 1 + 18 :=
    utf8ByteSize_frame_le (by decide) (by decide) (by decide)
  have hstatus : (frame "valid-structural").utf8ByteSize ≤ 2 + 1 + 16 :=
    utf8ByteSize_frame_le (by decide) (by decide) (by decide)
  have hfirst := utf8ByteSize_frame_le (k := 5) (by decide) hpayload (by decide)
  have hsecond := utf8ByteSize_frame_le (k := 5) (by decide) (utf8ByteSize_children_le h) (by decide)
  have hmax : maxClosureBytes = 262144 := rfl
  rw [Seal.utf8ByteSize_encode]
  simp only [List.map_cons, List.map_nil, List.sum_cons, List.sum_nil]
  omega

/-- The references in the text of a content row. -/
def childrenOf (raw : String) : Except SealError (List RowKey) := do
  match ← decode raw maxClosureBytes 4 with
  | [version, status, payload, children] =>
    if version ≠ "verdant-content-v1" then .error (.invalid "content node format")
    else if status ≠ "valid-structural" then .error (.status status)
    else if 16384 < payload.utf8ByteSize then .error (.limit "content payload")
    else
      let fields ← decode children maxClosureBytes maxNodes
      fields.mapM RowKey.decode
  | _ => .error (.invalid "content node format")

end ContentNode

/-- A row with its length and its digest. -/
structure RowRef where
  key : RowKey
  digest : Digest
  bytes : Nat
  deriving DecidableEq

namespace RowRef

def encode (ref : RowRef) : String := Seal.encode [ref.key.encode, ref.digest.text, Nat.repr ref.bytes]

def decode (raw : String) : Except SealError RowRef := do
  match ← Seal.decode raw 1024 3 with
  | [key, digest, bytes] =>
    let key ← RowKey.decode key
    let digest ← Digest.parse digest
    let bytes ← numberUsize bytes
    .ok ⟨key, digest, bytes⟩
  | _ => .error (.invalid "row reference")

theorem utf8ByteSize_encode {ref : RowRef} (h : ref.bytes < 2 ^ 64) : ref.encode.utf8ByteSize ≤ 250 := by
  have hkey := utf8ByteSize_frame_le (k := 3) (by decide) ref.key.utf8ByteSize_encode (by decide)
  have hdigest := utf8ByteSize_frame_le (k := 2) (by decide) (Nat.le_of_eq ref.digest.valid.1) (by decide)
  have hbytes := utf8ByteSize_frame_le (k := 2) (by decide)
    (utf8ByteSize_repr_le (k := 20) (by decide) (Nat.lt_trans h (by decide))) (by decide)
  unfold encode
  rw [Seal.utf8ByteSize_encode]
  simp only [List.map_cons, List.map_nil, List.sum_cons, List.sum_nil]
  omega

theorem decode_encode {ref : RowRef} (h : ref.bytes < 2 ^ 64) : decode ref.encode = .ok ref := by
  have hframe : Seal.decode ref.encode 1024 3 = .ok [ref.key.encode, ref.digest.text, Nat.repr ref.bytes] :=
    Seal.decode_encode (Nat.le_trans (utf8ByteSize_encode h) (by decide : 250 ≤ 1024)) (by simp) (by decide)
  unfold decode
  rw [hframe, Result.ok_bind]
  simp only [RowKey.decode_encode, Digest.parse_text, numberUsize_repr h, Result.ok_bind]

/-- What is read as a row reference is its text. -/
theorem encode_of_decode {raw : String} {ref : RowRef} (h : decode raw = .ok ref) : ref.encode = raw := by
  unfold decode at h
  obtain ⟨fields, hfields, h⟩ := Result.bind_eq_ok.1 h
  have hraw := ((Seal.decode_eq_ok (by decide)).1 hfields).1
  split at h
  · rename_i key digest bytes
    obtain ⟨k, hk, h⟩ := Result.bind_eq_ok.1 h
    obtain ⟨d, hd, h⟩ := Result.bind_eq_ok.1 h
    obtain ⟨n, hn, h⟩ := Result.bind_eq_ok.1 h
    cases h
    unfold encode
    rw [RowKey.decode_eq_ok.1 hk, Digest.parse_eq_ok.1 hd, repr_of_numberUsize hn]
    exact hraw
  · exact nomatch h

end RowRef

end Verdant.Seal
