import Verdant.Seal.References

/-!
# Native references

The exact artifacts of one native checkpoint, by their lengths and digests.  A captured reference is read back from its text
(`NativeRef.decode_encode`).
-/

namespace Verdant.Seal

open TextCodec Storage Access Binding

/-- What a look at a file of the native directory gives: its metadata and what can be read of it. -/
structure Artifact where
  regular : Bool
  length : Nat
  bytes : ByteArray

/-- What `checkpoint` reports, once completed; the digest is thirty-two bytes in hex. -/
structure CheckpointReport where
  generation : UInt64
  bytes : Nat
  digestHex : Digest

/-- What the native store answers: its lock, its canonical directory (`none` where that is not UTF-8), the files in it and
a checkpoint. -/
structure NativeHandle where
  lock : Except SealError Unit
  dir : Except SealError (Option String)
  file : String → Except SealError Artifact
  checkpoint : Except SealError CheckpointReport

def readArtifact (native : NativeHandle) (name : String) : Except SealError ByteArray := do
  let artifact ← native.file name
  if artifact.regular = false ∨ maxArtifactBytes < artifact.length then .error (.limit "regular native artifact bytes")
  else if maxArtifactBytes < artifact.bytes.size then .error (.limit "native artifact bytes")
  else .ok artifact.bytes

theorem size_of_readArtifact {native : NativeHandle} {name : String} {bytes : ByteArray}
    (h : readArtifact native name = .ok bytes) : bytes.size ≤ maxArtifactBytes := by
  unfold readArtifact at h
  obtain ⟨artifact, -, h⟩ := Result.bind_eq_ok.1 h
  rw [Result.ite_error_eq_ok, Result.ite_error_eq_ok] at h
  obtain ⟨-, hsize, hbytes⟩ := h
  cases hbytes
  exact Nat.not_lt.1 hsize

/-- `{:020}`. -/
def padded (n : Nat) : String := String.ofList (List.replicate (20 - (Nat.repr n).utf8ByteSize) '0') ++ Nat.repr n

def manifestName (generation : UInt64) : String := "MANIFEST-" ++ padded generation.toNat ++ ".control"
def snapshotName (generation : UInt64) : String := "SNAPSHOT-" ++ padded generation.toNat ++ ".logical"

structure NativeRef where
  store : String
  generation : UInt64
  manifestDigest : Digest
  manifestBytes : Nat
  snapshotDigest : Digest
  snapshotBytes : Nat
  seleneDigest : Digest
  deriving DecidableEq

namespace NativeRef

/-- References are ordered by their fields. -/
def order (ref : NativeRef) : String ×ₗ Nat ×ₗ String ×ₗ Nat ×ₗ String ×ₗ Nat ×ₗ String :=
  toLex (ref.store, toLex (ref.generation.toNat, toLex (ref.manifestDigest.text, toLex (ref.manifestBytes,
    toLex (ref.snapshotDigest.text, toLex (ref.snapshotBytes, ref.seleneDigest.text))))))

theorem order_injective : Function.Injective order := by
  rintro ⟨s, g, ⟨d, hd⟩, m, ⟨e, he⟩, n, ⟨f, hf⟩⟩ ⟨s', g', ⟨d', hd'⟩, m', ⟨e', he'⟩, n', ⟨f', hf'⟩⟩ h
  obtain ⟨hstore, h⟩ := Prod.mk.inj (toLex.injective h)
  obtain ⟨hgeneration, h⟩ := Prod.mk.inj (toLex.injective h)
  obtain ⟨hmanifest, h⟩ := Prod.mk.inj (toLex.injective h)
  obtain ⟨hmanifestBytes, h⟩ := Prod.mk.inj (toLex.injective h)
  obtain ⟨hsnapshot, h⟩ := Prod.mk.inj (toLex.injective h)
  obtain ⟨hsnapshotBytes, hselene⟩ := Prod.mk.inj (toLex.injective h)
  cases UInt64.toNat_inj.1 hgeneration
  simp only at hstore hmanifest hmanifestBytes hsnapshot hsnapshotBytes hselene
  subst hstore hmanifest hmanifestBytes hsnapshot hsnapshotBytes hselene
  rfl

instance : LinearOrder NativeRef := LinearOrder.lift' order order_injective

/-- A checkpoint with both of its artifacts, under the lock of the native store. -/
def capture (native : NativeHandle) (sha : Sha256) : Except SealError NativeRef := do
  native.lock
  let report ← native.checkpoint
  let dir ← native.dir
  let manifest ← readArtifact native (manifestName report.generation)
  let snapshot ← readArtifact native (snapshotName report.generation)
  if snapshot.size ≠ report.bytes then .error (.changed "checkpoint snapshot length")
  else match dir with
    | none => .error (.invalid "native path UTF-8")
    | some store =>
      let manifestDigest ← sha.hash manifest
      let snapshotDigest ← sha.hash snapshot
      .ok ⟨store, report.generation, manifestDigest, manifest.size, snapshotDigest, snapshot.size, report.digestHex⟩

/-- One artifact is still the one that was captured. -/
def verifyArtifact (native : NativeHandle) (sha : Sha256) (name : String) (digest : Digest) (bytes : Nat) :
    Except SealError Unit := do
  let actual ← readArtifact native name
  if actual.size ≠ bytes then .error (.changed name)
  else if (← sha.hash actual) ≠ digest then .error (.changed name)
  else .ok ()

def verify (native : NativeHandle) (sha : Sha256) (ref : NativeRef) : Except SealError Unit := do
  let dir ← native.dir
  if dir ≠ some ref.store then .error (.conflict "native reference belongs to another store")
  else
    verifyArtifact native sha (manifestName ref.generation) ref.manifestDigest ref.manifestBytes
    verifyArtifact native sha (snapshotName ref.generation) ref.snapshotDigest ref.snapshotBytes

def encode (ref : NativeRef) : String :=
  Seal.encode [ref.store, Nat.repr ref.generation.toNat, ref.manifestDigest.text, Nat.repr ref.manifestBytes,
    ref.snapshotDigest.text, Nat.repr ref.snapshotBytes, ref.seleneDigest.text]

def decode (raw : String) : Except SealError NativeRef := do
  match ← Seal.decode raw 8192 7 with
  | [store, generation, manifestDigest, manifestBytes, snapshotDigest, snapshotBytes, seleneDigest] =>
    let generation ← numberU64 generation
    let manifestDigest ← Digest.parse manifestDigest
    let manifestBytes ← numberUsize manifestBytes
    let snapshotDigest ← Digest.parse snapshotDigest
    let snapshotBytes ← numberUsize snapshotBytes
    let seleneDigest ← Digest.parse seleneDigest
    if generation = 0 ∨ maxArtifactBytes < manifestBytes ∨ maxArtifactBytes < snapshotBytes then
      .error (.limit "native reference")
    else .ok ⟨store, generation, manifestDigest, manifestBytes, snapshotDigest, snapshotBytes, seleneDigest⟩
  | _ => .error (.invalid "native reference")

/-- The longest path the host resolves. -/
def maxPath : Nat := 4096

/-- A reference as `capture` makes it of a checkpoint with a generation, in a directory with a path of the host. -/
structure Captured (ref : NativeRef) : Prop where
  store : ref.store.utf8ByteSize ≤ maxPath
  generation : ref.generation ≠ 0
  manifest : ref.manifestBytes ≤ maxArtifactBytes
  snapshot : ref.snapshotBytes ≤ maxArtifactBytes

theorem captured_of_capture {native : NativeHandle} {sha : Sha256} {ref : NativeRef} (h : capture native sha = .ok ref)
    (hdir : ∀ dir, native.dir = .ok (some dir) → dir.utf8ByteSize ≤ maxPath)
    (hgeneration : ∀ report, native.checkpoint = .ok report → report.generation ≠ 0) : ref.Captured := by
  unfold capture at h
  obtain ⟨_, -, h⟩ := Result.bind_eq_ok.1 h
  obtain ⟨report, hreport, h⟩ := Result.bind_eq_ok.1 h
  obtain ⟨dir, hresolved, h⟩ := Result.bind_eq_ok.1 h
  obtain ⟨manifest, hmanifest, h⟩ := Result.bind_eq_ok.1 h
  obtain ⟨snapshot, hsnapshot, h⟩ := Result.bind_eq_ok.1 h
  rw [Result.ite_error_eq_ok] at h
  obtain ⟨-, h⟩ := h
  cases dir with
  | none => exact nomatch h
  | some store =>
    obtain ⟨manifestDigest, -, h⟩ := Result.bind_eq_ok.1 h
    obtain ⟨snapshotDigest, -, h⟩ := Result.bind_eq_ok.1 h
    cases h
    exact ⟨hdir store hresolved, hgeneration report hreport, size_of_readArtifact hmanifest,
      size_of_readArtifact hsnapshot⟩

theorem utf8ByteSize_encode {ref : NativeRef} (h : ref.Captured) : ref.encode.utf8ByteSize ≤ 8192 := by
  have hlimit : maxArtifactBytes < 10 ^ 7 := by decide
  have hmax : maxPath = 4096 := rfl
  have hstore := utf8ByteSize_frame_le (k := 4) (by decide) h.store (by decide)
  have hgeneration := utf8ByteSize_frame_le (k := 2) (by decide)
    (utf8ByteSize_repr_le (k := 20) (by decide) (Nat.lt_trans ref.generation.toNat_lt (by decide))) (by decide)
  have hdigest : ∀ digest : Digest, (frame digest.text).utf8ByteSize ≤ 2 + 1 + 64 := fun digest =>
    utf8ByteSize_frame_le (by decide) (Nat.le_of_eq digest.valid.1) (by decide)
  have hbytes : ∀ n, n ≤ maxArtifactBytes → (frame (Nat.repr n)).utf8ByteSize ≤ 1 + 1 + 7 := fun n hn =>
    utf8ByteSize_frame_le (by decide) (utf8ByteSize_repr_le (by decide) (Nat.lt_of_le_of_lt hn hlimit)) (by decide)
  have hmanifest := hbytes _ h.manifest
  have hsnapshot := hbytes _ h.snapshot
  have hfirst := hdigest ref.manifestDigest
  have hsecond := hdigest ref.snapshotDigest
  have hthird := hdigest ref.seleneDigest
  unfold encode
  rw [Seal.utf8ByteSize_encode]
  simp only [List.map_cons, List.map_nil, List.sum_cons, List.sum_nil]
  omega

/-- A captured reference is read back. -/
theorem decode_encode {ref : NativeRef} (h : ref.Captured) : decode ref.encode = .ok ref := by
  have hlimit : maxArtifactBytes < 2 ^ 64 := by decide
  have hframe : Seal.decode ref.encode 8192 7 = .ok [ref.store, Nat.repr ref.generation.toNat, ref.manifestDigest.text,
      Nat.repr ref.manifestBytes, ref.snapshotDigest.text, Nat.repr ref.snapshotBytes, ref.seleneDigest.text] :=
    Seal.decode_encode (utf8ByteSize_encode h) (by simp) (by decide)
  have hmanifest := numberUsize_repr (Nat.lt_of_le_of_lt h.manifest hlimit)
  have hsnapshot := numberUsize_repr (Nat.lt_of_le_of_lt h.snapshot hlimit)
  have hfits : ¬(ref.generation = 0 ∨ maxArtifactBytes < ref.manifestBytes ∨ maxArtifactBytes < ref.snapshotBytes) := by
    rintro (hzero | hlarge | hlarge)
    · exact h.generation hzero
    · exact absurd h.manifest (Nat.not_le.2 hlarge)
    · exact absurd h.snapshot (Nat.not_le.2 hlarge)
  unfold decode
  rw [hframe, Result.ok_bind]
  simp only [numberU64_repr, Digest.parse_text, hmanifest, hsnapshot, Result.ok_bind, if_neg hfits]

end NativeRef

end Verdant.Seal
