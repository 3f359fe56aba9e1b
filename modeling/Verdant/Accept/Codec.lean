import Verdant.Seal.History

/-!
# Acceptance failures and records

The failures of the acceptance coordinator and its copy of the length framing.  The two copies accept the same texts and
read the same fields (`decode_iff_seal`); with the manifests and the rows of seals built on it, they read back whatever was
staged (`formats_read_back`).
-/

namespace Verdant.Accept

open TextCodec Storage Access Binding

inductive AcceptError where
  | invalid (what : String)
  | limit (what : String)
  | conflict (detail : String)
  | approvalMismatch
  | environmentOverride
  | blocked (error : Seal.SealError)
  | unknown (operation : OperationId) (detail : String)
  | storage (error : StorageError)
  | binding (error : BindingError)
  | access (error : AccessError)
  | «seal» (error : Seal.SealError)
  | io (detail : String)
  deriving DecidableEq

/-! ### Framing -/

def frameWords : FrameWords AcceptError where
  bytes := .limit "record bytes"
  fields := .limit "record fields"
  framing := .invalid "record framing"
  boundary := .invalid "record length/UTF-8"

/-- `number::<T>`, by the way `T` is parsed and spelled. -/
def number {α : Type} (parse : String → Option α) (spell : α → String) : String → Except AcceptError α :=
  spelled parse spell (.invalid "record number") (.invalid "noncanonical number")

def numberUsize : String → Except AcceptError Nat := number parseU64 Nat.repr
def numberU32 : String → Except AcceptError UInt32 := number parseUInt32 fun n => Nat.repr n.toNat

def encode (fields : List String) : String := encodeFrames fields

def decode (raw : String) (maxBytes maxFields : Nat) : Except AcceptError (List String) :=
  decodeFrames frameWords numberUsize raw maxBytes maxFields

@[simp]
theorem numberU32_repr (n : UInt32) : numberU32 (Nat.repr n.toNat) = .ok n := by
  unfold numberU32 number
  rw [spelled_eq_ok]
  exact ⟨parseUInt32_repr n, rfl⟩

theorem repr_of_numberU32 {s : String} {n : UInt32} (h : numberU32 s = .ok n) : Nat.repr n.toNat = s := by
  unfold numberU32 number at h
  exact (spelled_eq_ok.1 h).2

/-- The accepted texts are the framings within the limits. -/
theorem decode_eq_ok {raw : String} {maxBytes maxFields : Nat} (hbound : maxBytes < 2 ^ 64) {fields : List String} :
    decode raw maxBytes maxFields = .ok fields ↔
      encode fields = raw ∧ raw.utf8ByteSize ≤ maxBytes ∧ fields.length ≤ maxFields := by
  refine decodeFrames_eq_ok (fun n hn => ?_) fun s n hn => ?_
  · exact spelled_eq_ok.2 ⟨parseU64_repr (Nat.lt_of_le_of_lt hn hbound), rfl⟩
  · exact (spelled_eq_ok.1 hn).2

theorem decode_encode {fields : List String} {maxBytes maxFields : Nat} (hbytes : (encode fields).utf8ByteSize ≤ maxBytes)
    (hfields : fields.length ≤ maxFields) (hbound : maxBytes < 2 ^ 64) :
    decode (encode fields) maxBytes maxFields = .ok fields := (decode_eq_ok hbound).2 ⟨rfl, hbytes, hfields⟩

theorem encode_eq_seal (fields : List String) : encode fields = Seal.encode fields := rfl

/-- The two copies of the reader accept the same texts with the same fields. -/
theorem decode_iff_seal {raw : String} {maxBytes maxFields : Nat} (hbound : maxBytes < 2 ^ 64) {fields : List String} :
    decode raw maxBytes maxFields = .ok fields ↔ Seal.decode raw maxBytes maxFields = .ok fields := by
  rw [decode_eq_ok hbound, Seal.decode_eq_ok hbound, encode_eq_seal]

/-! ### Formats -/

/-- What reads back of a manifest: its bytes, and the quoted column of the row it is committed in. -/
def ReadsBack (sha : Seal.Sha256) (m : Seal.Manifest) : Prop :=
  Seal.Manifest.decode m.canonicalBytes = .ok m ∧ ∀ identity, m.identity sha = .ok identity →
    (Seal.History.rowText (sqlQuote (Value.text (Seal.SealEvent.publish identity m).text).toJson) >>=
      Seal.readEvent Seal.opSealText) = .ok (.publish identity m)

/-- Two manifests under one identity are one manifest, or their bytes are a collision. -/
def Separates (sha : Seal.Sha256) (a b : Seal.Manifest) : Prop :=
  ∀ identity, a.identity sha = .ok identity → b.identity sha = .ok identity →
    a = b ∨ a.canonicalBytes ≠ b.canonicalBytes ∧
      sha.hash a.canonicalBytes.toByteArray = sha.hash b.canonicalBytes.toByteArray

theorem readsBack_of_staged {build : Seal.Build} {m : Seal.Manifest} (h : m.Staged build) (sha : Seal.Sha256) :
    ReadsBack sha m := by
  have hdecode := Seal.Manifest.decode_canonicalBytes h
  refine ⟨hdecode, fun identity _ => ?_⟩
  have hreadable : (Seal.SealEvent.publish identity m).Readable := ⟨h.small, hdecode⟩
  rw [Seal.rowText_toJson, Result.ok_bind]
  exact Seal.readEvent_text hreadable

theorem separates_of_staged {build build' : Seal.Build} {a b : Seal.Manifest} (ha : a.Staged build) (hb : b.Staged build')
    (sha : Seal.Sha256) : Separates sha a b := by
  intro identity hidentity hidentity'
  by_cases hsame : a.canonicalBytes = b.canonicalBytes
  · exact .inl (Seal.Manifest.eq_of_canonicalBytes ha hb hsame)
  · exact .inr ⟨hsame, hidentity.trans hidentity'.symm⟩

/-- The framings are read back and are all that is read, by either copy; and whatever `stage` returns reads back, itself and
its row, with one manifest at most under an identity. -/
theorem formats_read_back (maxBytes maxFields : UInt64) (build build' : Seal.Build) (sha : Seal.Sha256) :
    (∀ fields, (Seal.encode fields).utf8ByteSize ≤ maxBytes.toNat → fields.length ≤ maxFields.toNat →
      Seal.decode (Seal.encode fields) maxBytes.toNat maxFields.toNat = .ok fields) ∧
    (∀ raw fields, Seal.decode raw maxBytes.toNat maxFields.toNat = .ok fields → Seal.encode fields = raw) ∧
    (∀ raw fields, decode raw maxBytes.toNat maxFields.toNat = .ok fields ↔
      Seal.decode raw maxBytes.toNat maxFields.toNat = .ok fields) ∧
    ∀ draft publisher native draft' publisher' native',
      Prog.Returns (fun r => ReadsBack sha r.1 ∧
        Prog.Returns (fun r' => Separates sha r.1 r'.1) (Seal.Manifest.stage build' draft' publisher' native' sha))
        (Seal.Manifest.stage build draft publisher native sha) := by
  have hbound : maxBytes.toNat < 2 ^ 64 := maxBytes.toNat_lt
  refine ⟨fun fields hbytes hfields => Seal.decode_encode hbytes hfields hbound,
    fun raw fields h => ((Seal.decode_eq_ok hbound).1 h).1, fun raw fields => decode_iff_seal hbound,
    fun draft publisher native draft' publisher' native' => ?_⟩
  refine (Seal.Manifest.returns_stage build draft publisher native sha).mono fun r hr => ?_
  refine ⟨readsBack_of_staged hr sha, ?_⟩
  exact (Seal.Manifest.returns_stage build' draft' publisher' native' sha).mono fun r' hr' => separates_of_staged hr hr' sha

/-! ### Text columns -/

def textJson (raw : String) : Except AcceptError String :=
  match Value.fromJson raw with
  | .ok (.text text) => .ok text
  | _ => .error (.invalid "record JSON text")

@[simp]
theorem textJson_toJson (text : String) : textJson (Value.text text).toJson = .ok text := by
  unfold textJson
  rw [Json.fromJson_toJson]

end Verdant.Accept
