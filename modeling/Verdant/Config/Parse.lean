import Verdant.Library.Slices
import Verdant.Library.Result

/-!
# Configuration text

`parse_kv` and `parse_value`: one `key = value` a line, quoted strings with five escapes, bare tokens, comments.  A slice
outside the text would stop the source; the reading then has no result (`none`).
-/

namespace Verdant.Config

open TextCodec

inductive ConfigError where
  | parse (line : Nat) (message : String)
  | unknownSection (name : String)
  | fieldCapabilityAbsent
  | listenerNotSupported
  deriving DecidableEq, Repr

structure Entry where
  line : Nat
  value : String
  quoted : Bool
  deriving DecidableEq, Repr

/-- The entries by their keys, in the order of their lines. -/
abbrev Entries := List (String × Entry)

def Entries.keys (entries : Entries) : List String := entries.map Prod.fst

/-! ### Values -/

/-- What the five escapes stand for. -/
def escaped : Char → Option Char
  | 'n' => some '\n'
  | 't' => some '\t'
  | 'r' => some '\r'
  | '\\' => some '\\'
  | '"' => some '"'
  | _ => none

def invalidEscape : String := "invalid escape (use \\\\, \\\", \\n, \\t, \\r)"

/-- The characters of a quoted string, and what is left after its closing quote. -/
def quotedFrom : List Char → List Char → Except String (List Char × List Char)
  | [], _ => .error "unterminated quoted string"
  | ['\\'], _ => .error invalidEscape
  | '\\' :: c :: cs, out =>
    match escaped c with
    | some d => quotedFrom cs (out ++ [d])
    | none => .error invalidEscape
  | c :: cs, out => if c = '"' then .ok (out, cs) else quotedFrom cs (out ++ [c])

/-- A value with the mark of a quoted one. -/
def parseValue (rest : List Char) (line : Nat) : Option (Except ConfigError Entry) :=
  if rest.head? = some '"' then do
    let chars ← sliceFrom 1 rest
    match quotedFrom chars [] with
    | .error message => some (.error (.parse line message))
    | .ok (out, left) =>
      if byteLength rest < byteLength left then none
      else do
        let tail ← sliceFrom (byteLength rest - byteLength left) rest
        if trim tail ≠ [] ∧ (trim tail).head? ≠ some '#' then
          some (.error (.parse line "trailing characters after value"))
        else some (.ok ⟨line, String.ofList out, true⟩)
  else if rest.head? = some '\'' then
    some (.error (.parse line "single quotes are not supported; use double quotes"))
  else
    let token := trim (rest.takeWhile (· ≠ '#'))
    if token = [] then some (.error (.parse line "missing value after '='"))
    else some (.ok ⟨line, String.ofList token, false⟩)

/-! ### Lines -/

def isKeyChar (c : Char) : Bool := c.isAlphanum || c = '_' || c = '-'

def ValidKey (key : List Char) : Prop := key ≠ [] ∧ key.all isKeyChar = true

instance (key : List Char) : Decidable (ValidKey key) := by
  unfold ValidKey
  infer_instance

def sectionError (name : List Char) : ConfigError :=
  if name = "field".toList then .fieldCapabilityAbsent
  else if name = "listener".toList then .listenerNotSupported
  else .unknownSection (String.ofList name)

/-- One line, after the entries of the lines before it. -/
def parseLine (line : Nat) (entries : Entries) (raw : List Char) : Option (Except ConfigError Entries) :=
  let text := trim raw
  if text = [] ∨ text.head? = some '#' then some (.ok entries)
  else if text.head? = some '[' then
    if text.getLast? = some ']' then do
      let inside ← sliceTo (byteLength text - 1) text
      let name ← sliceFrom 1 inside
      some (.error (sectionError (trim name)))
    else some (.error (.parse line "malformed section header (expected '[name]')"))
  else match findByte '=' text with
    | none => some (.error (.parse line "expected 'key = value'"))
    | some eq => do
      let before ← sliceTo eq text
      let key := trim before
      if ¬ ValidKey key then some (.error (.parse line ("invalid key '" ++ String.ofList key ++ "'")))
      else do
        let after ← sliceFrom (eq + 1) text
        match ← parseValue (trim after) line with
        | .error error => some (.error error)
        | .ok entry =>
          if String.ofList key ∈ entries.keys then
            some (.error (.parse line ("duplicate key '" ++ String.ofList key ++ "'")))
          else some (.ok (entries ++ [(String.ofList key, entry)]))

/-- The lines from a number on. -/
def parseLines : Nat → Entries → List (List Char) → Option (Except ConfigError Entries)
  | _, entries, [] => some (.ok entries)
  | line, entries, raw :: rest => do
    match ← parseLine line entries raw with
    | .error error => some (.error error)
    | .ok entries => parseLines (line + 1) entries rest

def parseKv (src : List Char) : Option (Except ConfigError Entries) := parseLines 1 [] (textLines src)

end Verdant.Config
