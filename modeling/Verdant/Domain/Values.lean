import Verdant.Domain.Json

/-!
# Exact and diagnostic values

Scalar values with their frozen JSON encoding.  A decimal keeps its lexical form and the proof that the form is a
decimal; missing, `false`, zero and the tagged diagnostics are distinct values.
-/

namespace Verdant

open TextCodec Json

def maxDecimalLen : Nat := 64

/-- The grammar `-?(0|[1-9][0-9]*)(\.[0-9]+)?`. -/
def isDecimalLexical (raw : String) : Bool :=
  let body := match raw.toList with
    | '-' :: cs => cs
    | cs => cs
  let (intPart, rest) := body.span (· ≠ '.')
  let fracOk := match rest with
    | [] => true
    | _ :: frac => frac ≠ [] && frac.all Char.isDigit
  intPart ≠ [] && intPart.all Char.isDigit && !(intPart.length > 1 && intPart.head? == some '0') && fracOk

/-- Exact decimal quantity in its lexical form. -/
structure Decimal where
  text : String
  valid : text ≠ "" ∧ text.utf8ByteSize ≤ maxDecimalLen ∧ isDecimalLexical text = true
  deriving DecidableEq

def Decimal.parse (raw : String) : Except DomainError Decimal :=
  if h₁ : raw = "" then .error (.empty "decimal")
  else if h₂ : raw.utf8ByteSize ≤ maxDecimalLen then
    if h₃ : isDecimalLexical raw = true then .ok ⟨raw, h₁, h₂, h₃⟩
    else .error (.invalidValue "decimal" raw)
  else .error (.tooLong "decimal" raw.utf8ByteSize maxDecimalLen)

/-- Tagged non-finite diagnostic or invalid reason. -/
inductive Diagnostic where
  | positiveInfinity
  | negativeInfinity
  | notANumber
  | invalid (detail : String)
  deriving DecidableEq, Repr

def Diagnostic.kind : Diagnostic → String
  | .positiveInfinity => "+inf"
  | .negativeInfinity => "-inf"
  | .notANumber => "nan"
  | .invalid _ => "invalid"

/-- Operating mode with unknown labels preserved. -/
inductive OpMode where
  | occupied
  | unoccupied
  | standby
  | unknown (raw : String)
  deriving DecidableEq, Repr

def OpMode.parse (raw : String) : Except DomainError OpMode :=
  if raw = "" then .error (.empty "mode")
  else if raw.utf8ByteSize > 128 then .error (.tooLong "mode" raw.utf8ByteSize 128)
  else if raw = "occupied" then .ok .occupied
  else if raw = "unoccupied" then .ok .unoccupied
  else if raw = "standby" then .ok .standby
  else .ok (.unknown raw)

def OpMode.asStr : OpMode → String
  | .occupied => "occupied"
  | .unoccupied => "unoccupied"
  | .standby => "standby"
  | .unknown raw => raw

/-- Scalar value; integers are the source's `i128`. -/
inductive Value where
  | missing
  | bool (b : Bool)
  | integer (n : Int)
  | decimal (d : Decimal)
  | text (s : String)
  | mode (m : OpMode)
  | diagnostic (d : Diagnostic)
  deriving DecidableEq

/-- `{"type":kind,name:rest}`: the frozen shape with one more field. -/
private def tagged (kind name rest : String) : String :=
  "\x7b\"type\":\"" ++ kind ++ "\",\"" ++ name ++ "\":" ++ rest ++ "\x7d"

def Value.toJson : Value → String
  | .missing => "\x7b\"type\":\"missing\"\x7d"
  | .bool b => tagged "bool" "value" (if b then "true" else "false")
  | .integer n => tagged "integer" "value" (quote (toString n))
  | .decimal d => tagged "decimal" "value" (quote d.text)
  | .text s => tagged "text" "value" (quote s)
  | .mode m => tagged "mode" "value" (quote m.asStr)
  | .diagnostic (.invalid detail) =>
    "\x7b\"type\":\"diagnostic\",\"kind\":\"invalid\",\"detail\":" ++ quote detail ++ "\x7d"
  | .diagnostic d => tagged "diagnostic" "kind" (quote d.kind)

def parseI128 (s : String) : Option Int :=
  (parseInt s).filter fun n => -2 ^ 127 ≤ n ∧ n < 2 ^ 127

def Value.fromJson (text : String) : Except DomainError Value := do
  let fields ← parseObject text
  let kind ← getString fields "type"
  if kind = "missing" then
    rejectUnknown fields ["type"]
    .ok .missing
  else if kind = "bool" then
    rejectUnknown fields ["type", "value"]
    let b ← getBool fields "value"
    .ok (.bool b)
  else if kind = "integer" then
    rejectUnknown fields ["type", "value"]
    let raw ← getString fields "value"
    match parseI128 raw with
    | some n => .ok (.integer n)
    | none => .error (.invalidValue "integer" raw)
  else if kind = "decimal" then
    rejectUnknown fields ["type", "value"]
    let raw ← getString fields "value"
    let d ← Decimal.parse raw
    .ok (.decimal d)
  else if kind = "text" then
    rejectUnknown fields ["type", "value"]
    let raw ← getString fields "value"
    .ok (.text raw)
  else if kind = "mode" then
    rejectUnknown fields ["type", "value"]
    let raw ← getString fields "value"
    let m ← OpMode.parse raw
    .ok (.mode m)
  else if kind = "diagnostic" then
    let kind ← getString fields "kind"
    if kind = "invalid" then
      rejectUnknown fields ["type", "kind", "detail"]
      let detail ← getString fields "detail"
      .ok (.diagnostic (.invalid detail))
    else if kind = "+inf" ∨ kind = "-inf" ∨ kind = "nan" then
      rejectUnknown fields ["type", "kind"]
      .ok (.diagnostic (if kind = "+inf" then .positiveInfinity
        else if kind = "-inf" then .negativeInfinity else .notANumber))
    else .error (.unexpectedType "+inf/-inf/nan/invalid" kind)
  else .error (.unexpectedType "missing/bool/integer/decimal/text/mode/diagnostic" kind)

end Verdant
