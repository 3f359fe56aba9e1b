import Verdant.Seal.Closure
import Verdant.Seal.NativeRefs
import Verdant.Semantics.Profile

/-!
# Manifests

The immutable meaning of a seal: its roots, the rows and findings they reach, and the native artifacts it retains.  Its
canonical bytes are a framing of fourteen fields whose digest is the identity of the seal.  A staged manifest is read back
from its bytes (`Manifest.decode_canonicalBytes`), and every manifest that is read has the bytes it was read from.
-/

namespace Verdant.Seal

open TextCodec Storage Access Binding Prog

/-! ### Drafts -/

def packageVersion : String := "0.1.0"
def seleneRev : String := "b65c2344c916d2c3ceeb72cefcd72e7960e95e25"

/-- What the build script records: the compiler and the target. -/
structure Build where
  rustcVersion : String
  buildTarget : String
  rustc_inert : IsInert rustcVersion
  target_inert : IsInert buildTarget

/-- Inert execution references. -/
structure RuntimeRef where
  binary : String
  host : String
  binary_inert : IsInert binary
  host_inert : IsInert host

def RuntimeRef.new (binary host : String) : Except SealError RuntimeRef :=
  if hbinary : IsInert binary then
    if hhost : IsInert host then .ok ⟨binary, host, hbinary, hhost⟩ else .error (.invalid "inert reference text")
  else .error (.invalid "inert reference text")

def RuntimeRef.fields (build : Build) (runtime : RuntimeRef) : List String :=
  [runtime.binary, runtime.host, packageVersion, build.rustcVersion, build.buildTarget, seleneRev]

def RuntimeRef.encode (build : Build) (runtime : RuntimeRef) : String := Seal.encode (runtime.fields build)

/-- Mutable caller intent; every reference is one of a completed checkpoint (`NativeRef.captured_of_capture`). -/
structure Draft where
  revision : BindingRevision
  scope : TrustedScope
  runtime : RuntimeRef
  roots : List RowKey
  native : List NativeRef
  revision_ne : revision.value ≠ 0
  roots_ne : roots ≠ []
  native_ne : native ≠ []
  roots_le : roots.length ≤ maxNodes
  native_le : native.length ≤ maxNativeRefs
  captured : ∀ ref ∈ native, ref.Captured

theorem mem_of_mem_sortDedup {α : Type} [LinearOrder α] {xs : List α} {x : α} (h : x ∈ sortDedup xs) : x ∈ xs :=
  (List.mem_insertionSort (· ≤ ·)).1 ((List.destutter_sublist (· ≠ ·) _).subset h)

theorem sortDedup_ne_nil {α : Type} [LinearOrder α] {xs : List α} (h : xs ≠ []) : sortDedup xs ≠ [] := by
  have hsorted : xs.insertionSort (· ≤ ·) ≠ [] := by
    intro hnil
    have hlength := List.length_insertionSort (· ≤ ·) xs
    rw [hnil] at hlength
    exact h (List.length_eq_zero_iff.1 hlength.symm)
  unfold sortDedup
  cases hlist : xs.insertionSort (· ≤ ·) with
  | nil => exact absurd hlist hsorted
  | cons a rest => exact List.destutter'_ne_nil _ _

def Draft.new (revision : BindingRevision) (scope : TrustedScope) (runtime : RuntimeRef) (roots : List RowKey)
    (native : List NativeRef) (hcaptured : ∀ ref ∈ native, ref.Captured) : Except SealError Draft :=
  if hempty : revision.value = 0 ∨ roots = [] ∨ native = [] then
    .error (.invalid "nonempty revision, findings and native references required")
  else if hlong : maxNodes < roots.length ∨ maxNativeRefs < native.length then .error (.limit "draft references")
  else .ok {
    revision := revision
    scope := scope
    runtime := runtime
    roots := sortDedup roots
    native := sortDedup native
    revision_ne := fun h => hempty (.inl h)
    roots_ne := sortDedup_ne_nil fun h => hempty (.inr (.inl h))
    native_ne := sortDedup_ne_nil fun h => hempty (.inr (.inr h))
    roots_le := Nat.le_trans (length_sortDedup_le _) (Nat.not_lt.1 fun h => hlong (.inl h))
    native_le := Nat.le_trans (length_sortDedup_le _) (Nat.not_lt.1 fun h => hlong (.inr h))
    captured := fun ref href => hcaptured ref (mem_of_mem_sortDedup href) }

/-! ### Manifests -/

structure Manifest where
  scope : TrustedScope
  revision : UInt32
  runtime : String
  publisher : String
  hashTool : String
  roots : List RowKey
  rows : List RowRef
  findings : List String
  native : List NativeRef
  deriving DecidableEq

namespace Manifest

def fields (m : Manifest) : List String :=
  ["verdant-seal-v1", "valid-structural-not-qualified", m.scope.text, Nat.repr m.revision.toNat, Nat.repr 1,
    Semantics.pinnedProfileId, "verdant-converter-r07-v1", m.runtime, m.publisher, m.hashTool,
    encode (m.roots.map RowKey.encode), encode (m.rows.map RowRef.encode), encode m.findings,
    encode (m.native.map NativeRef.encode)]

def canonicalBytes (m : Manifest) : String := encode m.fields

def identity (sha : Sha256) (m : Manifest) : Except SealError Digest := sha.hash m.canonicalBytes.toByteArray

/-- Stages all bytes of a draft, with the guard of its rows. -/
def stage (build : Build) (draft : Draft) (publisher : String) (native : NativeHandle) (sha : Sha256) :
    SealCall (Manifest × Guard) := do
  let closure ← closure sha draft.scope draft.roots
  Prog.check (draft.native.forM (NativeRef.verify native sha))
  let result : Manifest := ⟨draft.scope, draft.revision.value, draft.runtime.encode build, publisher, sha.reference,
    draft.roots, closure.rows, closure.findings, draft.native⟩
  Prog.check (if maxManifestBytes < result.canonicalBytes.utf8ByteSize then .error (.limit "manifest bytes")
    else .ok (result, closure.guard))

/-- The rows and the artifacts are still those of the manifest. -/
def verify (native : NativeHandle) (sha : Sha256) (m : Manifest) : SealCall Unit := do
  let closure ← closure sha m.scope m.roots
  Prog.check (if closure.rows ≠ m.rows ∨ closure.findings ≠ m.findings then
      .error (.changed "durable row/reference closure")
    else m.native.forM (NativeRef.verify native sha))

def checkRuntime (revision : UInt32) (raw : String) : Except SealError Unit := do
  let runtime ← Seal.decode raw 2048 6
  if runtime.length ≠ 6 ∨ runtime[5]? ≠ some seleneRev ∨ revision = 0 then
    .error (.invalid "manifest execution/version refs")
  else runtime.forM fun field => do
    let _ ← text field
    .ok ()

/-- A nested list of records. -/
def decodeList {α : Type} (decodeOne : String → Except SealError α) (limit : Nat) (raw : String) :
    Except SealError (List α) := do
  let items ← Seal.decode raw maxManifestBytes limit
  items.mapM decodeOne

def decode (raw : String) : Except SealError Manifest := do
  match ← Seal.decode raw maxManifestBytes 14 with
  | [version, status, scope, revision, generation, profile, converter, runtime, publisher, hashTool, roots, rows,
      findings, native] =>
    if version ≠ "verdant-seal-v1" ∨ status ≠ "valid-structural-not-qualified" ∨ generation ≠ Nat.repr 1 ∨
        profile ≠ Semantics.pinnedProfileId ∨ converter ≠ "verdant-converter-r07-v1" then
      .error (.invalid "manifest version/status")
    else
      let scope ← (TrustedScope.parse scope).mapError fun _ => .invalid "manifest scope"
      let revision ← numberU32 revision
      checkRuntime revision runtime
      let roots ← decodeList RowKey.decode maxNodes roots
      let rows ← decodeList RowRef.decode maxNodes rows
      let findings ← Seal.decode findings maxManifestBytes maxNodes
      let native ← decodeList NativeRef.decode maxNativeRefs native
      if roots = [] ∨ findings = [] ∨ native = [] ∨ rows = [] then .error (.invalid "empty seal closure")
      else
        let result : Manifest := ⟨scope, revision, runtime, publisher, hashTool, roots, rows, findings, native⟩
        if result.canonicalBytes ≠ raw then .error (.invalid "noncanonical manifest")
        else .ok result
  | _ => .error (.invalid "manifest version/status")

/-! ### Reading back -/

/-- A manifest as `stage` makes it of a draft with captured references. -/
structure Staged (build : Build) (m : Manifest) : Prop where
  runtime : ∃ runtime : RuntimeRef, m.runtime = runtime.encode build
  revision : m.revision ≠ 0
  roots_ne : m.roots ≠ []
  roots_le : m.roots.length ≤ maxNodes
  rows_ne : m.rows ≠ []
  rows_le : m.rows.length ≤ maxNodes
  lengths : ∀ ref ∈ m.rows, ref.bytes ≤ maxClosureBytes
  findings_ne : m.findings ≠ []
  findings_le : m.findings.length ≤ maxNodes
  native_ne : m.native ≠ []
  native_le : m.native.length ≤ maxNativeRefs
  captured : ∀ ref ∈ m.native, ref.Captured
  small : m.canonicalBytes.utf8ByteSize ≤ maxManifestBytes

theorem checkRuntime_encode {build : Build} {revision : UInt32} (runtime : RuntimeRef) (h : revision ≠ 0) :
    checkRuntime revision (runtime.encode build) = .ok () := by
  have hinert : ∀ field ∈ runtime.fields build, IsInert field := by
    unfold RuntimeRef.fields
    simp only [List.forall_mem_cons, List.not_mem_nil, false_implies, implies_true, and_true]
    exact ⟨runtime.binary_inert, runtime.host_inert, by decide, build.rustc_inert, build.target_inert, by decide⟩
  have hsize : (runtime.encode build).utf8ByteSize ≤ 2048 := by
    have hbound := utf8ByteSize_encode_le (k := 3) (by decide) (fun f hf => (hinert f hf).2.1) (by decide)
    have hlength : (runtime.fields build).length = 6 := rfl
    unfold RuntimeRef.encode
    omega
  have hframe : Seal.decode (runtime.encode build) 2048 6 = .ok (runtime.fields build) :=
    Seal.decode_encode hsize (Nat.le_refl 6) (by decide)
  have hshape : ¬((runtime.fields build).length ≠ 6 ∨ (runtime.fields build)[5]? ≠ some seleneRev ∨ revision = 0) := by
    rintro (hlength | hrev | hzero)
    · exact hlength rfl
    · exact hrev rfl
    · exact h hzero
  unfold checkRuntime
  rw [hframe, Result.ok_bind, if_neg hshape]
  refine Result.forM_eq_ok.2 fun field hfield => ?_
  rw [text_eq_ok.2 ⟨hinert field hfield, rfl⟩]
  rfl

/-- A nested list of records that are read back is read back. -/
theorem decodeList_encode {α : Type} {decodeOne : String → Except SealError α} {encodeOne : α → String} {limit : Nat}
    {xs : List α} (hone : ∀ x ∈ xs, decodeOne (encodeOne x) = .ok x) (hlimit : xs.length ≤ limit)
    (hsize : (Seal.encode (xs.map encodeOne)).utf8ByteSize ≤ maxManifestBytes) :
    decodeList decodeOne limit (Seal.encode (xs.map encodeOne)) = .ok xs := by
  have hframe : Seal.decode (Seal.encode (xs.map encodeOne)) maxManifestBytes limit = .ok (xs.map encodeOne) :=
    Seal.decode_encode hsize (by rw [List.length_map]; exact hlimit) (by decide)
  unfold decodeList
  rw [hframe, Result.ok_bind, Result.mapM_eq_ok, List.forall₂_map_left_iff, List.forall₂_same]
  exact hone

/-- A staged manifest is read back from its bytes. -/
theorem decode_canonicalBytes {build : Build} {m : Manifest} (h : m.Staged build) : decode m.canonicalBytes = .ok m := by
  have hfields : Seal.decode m.canonicalBytes maxManifestBytes 14 = .ok m.fields :=
    Seal.decode_encode h.small (Nat.le_refl 14) (by decide)
  have hnested : ∀ field ∈ m.fields, field.utf8ByteSize ≤ maxManifestBytes := fun field hfield =>
    Nat.le_trans (utf8ByteSize_le_encodeFrames hfield) h.small
  have hroots : decodeList RowKey.decode maxNodes (Seal.encode (m.roots.map RowKey.encode)) = .ok m.roots :=
    decodeList_encode (fun key _ => key.decode_encode) h.roots_le (hnested _ (by simp [fields]))
  have hrows : decodeList RowRef.decode maxNodes (Seal.encode (m.rows.map RowRef.encode)) = .ok m.rows :=
    decodeList_encode (fun ref href => RowRef.decode_encode (Nat.lt_of_le_of_lt (h.lengths ref href) (by decide)))
      h.rows_le (hnested _ (by simp [fields]))
  have hfindings : Seal.decode (Seal.encode m.findings) maxManifestBytes maxNodes = .ok m.findings :=
    Seal.decode_encode (hnested _ (by simp [fields])) h.findings_le (by decide)
  have hnative : decodeList NativeRef.decode maxNativeRefs (Seal.encode (m.native.map NativeRef.encode)) = .ok m.native :=
    decodeList_encode (fun ref href => NativeRef.decode_encode (h.captured ref href)) h.native_le
      (hnested _ (by simp [fields]))
  have hruntime : checkRuntime m.revision m.runtime = .ok () := by
    obtain ⟨runtime, hruntime⟩ := h.runtime
    rw [hruntime]
    exact checkRuntime_encode runtime h.revision
  have hnonempty : ¬(m.roots = [] ∨ m.findings = [] ∨ m.native = [] ∨ m.rows = []) := by
    rintro (hnil | hnil | hnil | hnil)
    · exact h.roots_ne hnil
    · exact h.findings_ne hnil
    · exact h.native_ne hnil
    · exact h.rows_ne hnil
  unfold decode
  rw [hfields, Result.ok_bind]
  unfold fields
  simp only [ne_eq, not_true_eq_false, or_self, if_false, parse_scope, Except.mapError, Result.ok_bind, numberU32_repr,
    hruntime, hroots, hrows, hfindings, hnative, if_neg hnonempty]

/-- What is read as a manifest are its bytes. -/
theorem canonicalBytes_of_decode {raw : String} {m : Manifest} (h : decode raw = .ok m) : m.canonicalBytes = raw := by
  unfold decode at h
  obtain ⟨fields, -, h⟩ := Result.bind_eq_ok.1 h
  split at h
  · obtain ⟨-, h⟩ := Result.ite_error_eq_ok.1 h
    obtain ⟨scope, -, h⟩ := Result.bind_eq_ok.1 h
    obtain ⟨revision, -, h⟩ := Result.bind_eq_ok.1 h
    obtain ⟨_, -, h⟩ := Result.bind_eq_ok.1 h
    obtain ⟨roots, -, h⟩ := Result.bind_eq_ok.1 h
    obtain ⟨rows, -, h⟩ := Result.bind_eq_ok.1 h
    obtain ⟨findings, -, h⟩ := Result.bind_eq_ok.1 h
    obtain ⟨native, -, h⟩ := Result.bind_eq_ok.1 h
    obtain ⟨-, h⟩ := Result.ite_error_eq_ok.1 h
    obtain ⟨hraw, h⟩ := Result.ite_error_eq_ok.1 h
    rw [← Except.ok.inj h]
    exact not_not.1 hraw
  · cases h

/-- Manifests with one text are one manifest, where one of them is staged and the other is read. -/
theorem eq_of_canonicalBytes {build build' : Build} {a b : Manifest} (ha : a.Staged build) (hb : b.Staged build')
    (h : a.canonicalBytes = b.canonicalBytes) : a = b := by
  have hread := decode_canonicalBytes ha
  rw [h, decode_canonicalBytes hb] at hread
  exact (Except.ok.inj hread).symm

/-- What `stage` returns is staged. -/
theorem returns_stage (build : Build) (draft : Draft) (publisher : String) (native : NativeHandle) (sha : Sha256) :
    Returns (fun r : Manifest × Guard => r.1.Staged build) (stage build draft publisher native sha) := by
  unfold stage
  refine Returns.tryBind (returns_closure sha draft.scope draft.roots) fun closure hclosure => ?_
  refine Returns.tryBind (R := fun _ => True) (fun _ _ => trivial) fun _ _ => ?_
  rintro ⟨m, guard⟩ h
  obtain ⟨hsmall, h⟩ := Result.ite_error_eq_ok.1 h
  cases h
  have hrows : closure.rows ≠ [] := by
    intro hnil
    have hfew := hclosure.findings
    rw [hnil, List.length_nil, Nat.le_zero, List.length_eq_zero_iff] at hfew
    exact hclosure.nonempty hfew
  exact {
    runtime := ⟨draft.runtime, rfl⟩
    revision := draft.revision_ne
    roots_ne := draft.roots_ne
    roots_le := draft.roots_le
    rows_ne := hrows
    rows_le := hclosure.rows
    lengths := hclosure.refs
    findings_ne := hclosure.nonempty
    findings_le := Nat.le_trans hclosure.findings hclosure.rows
    native_ne := draft.native_ne
    native_le := draft.native_le
    captured := draft.captured
    small := Nat.not_lt.1 hsmall }

end Manifest

end Verdant.Seal
