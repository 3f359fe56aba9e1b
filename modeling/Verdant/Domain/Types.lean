import Verdant.Library.Text

/-!
# Shared domain types

Identities, units, clock triples and record identities, with the errors their constructors report.  An identity is a
text together with the proof that `validateId` accepts it, so a value of `OperationId` is always one that
`OperationId::parse` returned.  Machine integers are read with their range (`parseI64`, `parseU64`, `parseU32`).
-/

namespace Verdant

open TextCodec

/-! ### Machine integers in text -/

def parseI64 (s : String) : Option Int :=
  (parseInt s).filter fun n => -2 ^ 63 ≤ n ∧ n < 2 ^ 63

def parseU64 (s : String) : Option Nat :=
  (parseNat s).filter fun n => n < 2 ^ 64

def parseU32 (s : String) : Option Nat :=
  (parseNat s).filter fun n => n < 2 ^ 32

theorem parseI64_repr {n : Nat} (h : n < 2 ^ 63) : parseI64 (Nat.repr n) = some (n : Int) := by
  simp only [parseI64, parseInt_repr, Option.filter_some, decide_eq_true_eq]
  rw [if_pos]
  omega

theorem parseU64_repr {n : Nat} (h : n < 2 ^ 64) : parseU64 (Nat.repr n) = some n := by
  simp only [parseU64, parseNat_repr, Option.filter_some, decide_eq_true_eq]
  rw [if_pos h]

theorem parseU32_repr {n : Nat} (h : n < 2 ^ 32) : parseU32 (Nat.repr n) = some n := by
  simp only [parseU32, parseNat_repr, Option.filter_some, decide_eq_true_eq]
  rw [if_pos h]

/-! ### Errors -/

/-- Typed domain failure (the variants the modelled constructors report). -/
inductive DomainError where
  | empty (what : String)
  | tooLong (what : String) (len max : Nat)
  | badChars (what value : String)
  | invalidValue (what value : String)
  | missingField (field : String)
  | unexpectedField (field : String)
  | unexpectedType (expected got : String)
  | impossibleOrder (detail : String)
  | json (message : String)
  deriving DecidableEq, Repr

/-- The text a domain error displays. -/
def DomainError.display : DomainError → String
  | .empty what => s!"{what} must not be empty"
  | .tooLong what len max => s!"{what} is {len} chars; maximum is {max}"
  | .badChars what value => s!"{what} has unsupported characters: '{value}'"
  | .invalidValue what value => s!"{what} is invalid: '{value}'"
  | .missingField field => s!"missing required field '{field}'"
  | .unexpectedField field => s!"unexpected field '{field}'"
  | .unexpectedType expected got => s!"expected {expected}, got '{got}'"
  | .impossibleOrder detail => s!"impossible clock order: {detail}"
  | .json message => s!"invalid JSON: {message}"

/-- The machine code of a domain error. -/
def DomainError.code : DomainError → String
  | .empty _ => "empty"
  | .tooLong _ _ _ => "too-long"
  | .badChars _ _ => "bad-chars"
  | .invalidValue _ _ => "invalid-value"
  | .missingField _ => "missing-field"
  | .unexpectedField _ => "unexpected-field"
  | .unexpectedType _ _ => "unexpected-type"
  | .impossibleOrder _ => "impossible-order"
  | .json _ => "json"

/-! ### Identities -/

/-- Maximum identifier length in bytes. -/
def maxIdLen : Nat := 128

def idChar (c : Char) : Bool :=
  c.isAlphanum || c == '-' || c == '_' || c == '.' || c == ':' || c == '/'

def validateId (kind raw : String) : Except DomainError Unit :=
  if raw = "" then .error (.empty kind)
  else if raw.utf8ByteSize > maxIdLen then .error (.tooLong kind raw.utf8ByteSize maxIdLen)
  else if raw.toList.all idChar then .ok ()
  else .error (.badChars kind raw)

/-- The texts every identity kind accepts; the kind only names the error. -/
def IsId (raw : String) : Prop := raw ≠ "" ∧ raw.utf8ByteSize ≤ maxIdLen ∧ raw.toList.all idChar = true

instance (raw : String) : Decidable (IsId raw) := by
  unfold IsId
  infer_instance

theorem validateId_eq_ok {kind raw : String} : validateId kind raw = .ok () ↔ IsId raw := by
  unfold validateId IsId
  by_cases hempty : raw = ""
  · simp [hempty]
  by_cases hlen : raw.utf8ByteSize > maxIdLen
  · have hlong : ¬ raw.utf8ByteSize ≤ maxIdLen := by omega
    simp [hempty, hlen, hlong]
  · have hshort : raw.utf8ByteSize ≤ maxIdLen := by omega
    by_cases hchars : raw.toList.all idChar = true
    · simp only [if_neg hempty, if_neg hlen, if_pos hchars]
      exact ⟨fun _ => ⟨hempty, hshort, hchars⟩, fun _ => trivial⟩
    · simp only [if_neg hempty, if_neg hlen, if_neg hchars]
      exact ⟨fun h => (nomatch h), fun h => absurd h.2.2 hchars⟩

/-- An identity text has no quote. -/
theorem IsId.unquoted {raw : String} (h : IsId raw) : '\'' ∉ raw.toList := by
  intro hc
  have := List.all_eq_true.1 h.2.2 _ hc
  exact absurd this (by decide)

/-- Business operation identity. -/
structure OperationId where
  text : String
  valid : IsId text
  deriving DecidableEq

/-- Installed equipment or sensor identity. -/
structure InstalledId where
  text : String
  valid : IsId text
  deriving DecidableEq

/-- Source-generation identity. -/
structure SourceGenerationId where
  text : String
  valid : IsId text
  deriving DecidableEq

/-- Scope identity: representation only, not evidence of authorization. -/
structure TrustedScope where
  text : String
  valid : IsId text
  deriving DecidableEq

/-- The shared shape of the identity constructors. -/
def parseId {α : Type} (kind raw : String) (make : (text : String) → IsId text → α) : Except DomainError α :=
  match h : validateId kind raw with
  | .error e => .error e
  | .ok () => .ok (make raw (validateId_eq_ok.1 h))

theorem parseId_of_isId {α : Type} {kind raw : String} {make : (text : String) → IsId text → α} (h : IsId raw) :
    parseId kind raw make = .ok (make raw h) := by
  unfold parseId
  split
  · rename_i e he
    rw [validateId_eq_ok.2 h] at he
    exact nomatch he
  · rfl

def OperationId.parse (raw : String) : Except DomainError OperationId := parseId "operation-id" raw .mk
def InstalledId.parse (raw : String) : Except DomainError InstalledId := parseId "installed-id" raw .mk
def SourceGenerationId.parse (raw : String) : Except DomainError SourceGenerationId :=
  parseId "source-generation-id" raw .mk
def TrustedScope.parse (raw : String) : Except DomainError TrustedScope := parseId "scope-id" raw .mk

@[simp]
theorem OperationId.parse_text (operation : OperationId) : OperationId.parse operation.text = .ok operation := by
  exact parseId_of_isId operation.valid

theorem OperationId.text_of_parse {raw : String} {operation : OperationId}
    (h : OperationId.parse raw = .ok operation) : operation.text = raw := by
  unfold OperationId.parse parseId at h
  split at h
  · exact nomatch h
  · cases h
    rfl

theorem OperationId.ext_text {a b : OperationId} (h : a.text = b.text) : a = b := by
  cases a
  cases b
  simpa using h

theorem InstalledId.ext_text {a b : InstalledId} (h : a.text = b.text) : a = b := by
  cases a
  cases b
  simpa using h

theorem TrustedScope.ext_text {a b : TrustedScope} (h : a.text = b.text) : a = b := by
  cases a
  cases b
  simpa using h

/-! ### Revisions and authority -/

/-- Semantic revision of a binding. -/
structure BindingRevision where
  value : UInt32
  deriving DecidableEq

/-- The largest accepted revision. -/
def maxAccepted : UInt32 := 256

/-- Revision of an accepted publication. -/
structure AcceptedRevision where
  value : UInt32
  le_max : value ≤ maxAccepted
  deriving DecidableEq

def AcceptedRevision.new (value : UInt32) : Option AcceptedRevision :=
  if h : value ≤ maxAccepted then some ⟨value, h⟩ else none

inductive RoleKind where
  | reviewer
  | publisher
  deriving DecidableEq, Repr

/-- The assistance ceiling a publisher needs. -/
def requiredPublishCeiling : UInt8 := 2

/-- `checked_add(1)` on `u32`. -/
def checkedSucc (n : UInt32) : Option UInt32 :=
  if n.toNat + 1 < 2 ^ 32 then some (n + 1) else none

theorem toNat_of_checkedSucc {n m : UInt32} (h : checkedSucc n = some m) : m.toNat = n.toNat + 1 := by
  unfold checkedSucc at h
  split at h
  · rename_i hlt
    cases h
    rw [UInt32.toNat_add]
    exact Nat.mod_eq_of_lt hlt
  · exact nomatch h

/-- A `u32` column as a statement reads it back. -/
def parseUInt32 (s : String) : Option UInt32 := (parseU32 s).map UInt32.ofNat

@[simp]
theorem parseUInt32_repr (n : UInt32) : parseUInt32 (Nat.repr n.toNat) = some n := by
  rw [parseUInt32, parseU32_repr n.toNat_lt]
  simp

/-! ### Units, clock triples and records -/

inductive KnownUnit where
  | degC
  | percent
  | pascal
  | litresPerSecond
  deriving DecidableEq, Repr

def KnownUnit.parse (raw : String) : Option KnownUnit :=
  if raw = "degC" then some .degC
  else if raw = "percent" then some .percent
  else if raw = "Pa" then some .pascal
  else if raw = "L/s" then some .litresPerSecond
  else none

/-- Unit that preserves unknown labels. -/
inductive MeasureUnit where
  | known (unit : KnownUnit)
  | unknown (raw : String)
  deriving DecidableEq, Repr

def MeasureUnit.parse (raw : String) : Except DomainError MeasureUnit :=
  if raw = "" then .error (.empty "unit")
  else if raw.utf8ByteSize > 128 then .error (.tooLong "unit" raw.utf8ByteSize 128)
  else match KnownUnit.parse raw with
    | some unit => .ok (.known unit)
    | none => .ok (.unknown raw)

def MeasureUnit.asStr : MeasureUnit → String
  | .known .degC => "degC"
  | .known .percent => "percent"
  | .known .pascal => "Pa"
  | .known .litresPerSecond => "L/s"
  | .unknown raw => raw

/-- Source, receipt and ingestion times in order. -/
structure TimeTriple where
  source : Int
  receipt : Int
  ingestion : Int
  source_le : source ≤ receipt
  receipt_le : receipt ≤ ingestion
  deriving DecidableEq

def TimeTriple.new (source receipt ingestion : Int) : Except DomainError TimeTriple :=
  if h₁ : source ≤ receipt then
    if h₂ : receipt ≤ ingestion then .ok ⟨source, receipt, ingestion, h₁, h₂⟩
    else .error (.impossibleOrder s!"ingestion {ingestion} is before receipt {receipt}")
  else .error (.impossibleOrder s!"receipt {receipt} is before source {source}")

/-- Record identity: the generation is part of it. -/
structure RecordIdentity where
  generation : SourceGenerationId
  seq : Nat
  deriving DecidableEq

end Verdant
