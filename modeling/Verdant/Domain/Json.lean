import Verdant.Domain.Types

/-!
# JSON substrate

The reader of the domain's JSON texts and the typed field access over it.  The reader works on the characters still
to be read.  `parseValue` recurses on the nesting budget (the bound of 16 in the source), the loops over items,
fields and string characters on the number of characters left, so every definition is structural.
-/

namespace Verdant

/-- Parsed JSON value; numbers keep their raw text and object fields are sorted by key. -/
inductive JsonVal where
  | null
  | bool (b : Bool)
  | number (raw : String)
  | str (s : String)
  | array (items : List JsonVal)
  | object (fields : List (String × JsonVal))

namespace Json

/-- The character a reader reports for the next byte of the input. -/
def byteChar (c : Char) : Char :=
  match (String.singleton c).toByteArray.data.toList with
  | b :: _ => Char.ofNat b.toNat
  | [] => c

def hex4 (n : Nat) : String :=
  let digits := Nat.toDigits 16 n
  String.ofList (List.replicate (4 - digits.length) '0' ++ digits)

def quoteChar (c : Char) : String :=
  if c = '"' then "\\\""
  else if c = '\\' then "\\\\"
  else if c = '\n' then "\\n"
  else if c = '\r' then "\\r"
  else if c = '\t' then "\\t"
  else if c.toNat < 0x20 then "\\u" ++ hex4 c.toNat
  else String.singleton c

/-- Quotes a string as a JSON string literal. -/
def quote (raw : String) : String :=
  "\"" ++ String.join (raw.toList.map quoteChar) ++ "\""

def skipWs (cs : List Char) : List Char :=
  cs.dropWhile fun c => c == ' ' || c == '\t' || c == '\n' || c == '\r'

def expectByte (want : Char) (what : String) : List Char → Except String (List Char)
  | c :: cs => if c = want then .ok cs else .error s!"expected {what}, got '{byteChar c}'"
  | [] => .error s!"expected {what}, got end of input"

def parseLiteral (word : String) (value : JsonVal) (cs : List Char) : Except String (JsonVal × List Char) :=
  if word.toList.isPrefixOf cs then .ok (value, cs.drop word.toList.length)
  else .error s!"expected '{word}'"

def spanDigits (cs : List Char) : List Char × List Char := cs.span Char.isDigit

def parseFraction (cs : List Char) : Except String (List Char × List Char) :=
  match cs with
  | '.' :: rest =>
    let (digits, rest) := spanDigits rest
    if digits = [] then .error "invalid JSON number: expected digits after '.'"
    else .ok ('.' :: digits, rest)
  | _ => .ok ([], cs)

def parseExponent (cs : List Char) : Except String (List Char × List Char) :=
  match cs with
  | e :: rest =>
    if e = 'e' ∨ e = 'E' then
      let (sign, rest) := match rest with
        | '+' :: r => (['+'], r)
        | '-' :: r => (['-'], r)
        | r => ([], r)
      let (digits, rest) := spanDigits rest
      if digits = [] then .error "invalid JSON number: expected digits in exponent"
      else .ok (e :: sign ++ digits, rest)
    else .ok ([], cs)
  | [] => .ok ([], [])

def parseNumber (cs : List Char) : Except String (String × List Char) := do
  let (sign, rest) := match cs with
    | '-' :: r => (['-'], r)
    | r => ([], r)
  let (digits, rest) := spanDigits rest
  if digits = [] then .error "invalid JSON number: expected digits"
  else
    let (fraction, rest) ← parseFraction rest
    let (exponent, rest) ← parseExponent rest
    .ok (String.ofList (sign ++ digits ++ fraction ++ exponent), rest)

/-- Four hexadecimal digits of an escape. -/
def parseHex4 : List Char → Except String (Nat × List Char)
  | a :: b :: c :: d :: rest =>
    match TextCodec.hexDigitValue a, TextCodec.hexDigitValue b, TextCodec.hexDigitValue c,
        TextCodec.hexDigitValue d with
    | some w, some x, some y, some z => .ok (((w * 16 + x) * 16 + y) * 16 + z, rest)
    | _, _, _, _ => .error "invalid hex digit in \\u escape"
  | _ => .error "truncated \\u escape"

/-- The character after a backslash and the input after it. -/
def parseEscape : List Char → Except String (Char × List Char)
  | [] => .error "unterminated escape"
  | '"' :: cs => .ok ('"', cs)
  | '\\' :: cs => .ok ('\\', cs)
  | '/' :: cs => .ok ('/', cs)
  | 'b' :: cs => .ok (Char.ofNat 8, cs)
  | 'f' :: cs => .ok (Char.ofNat 12, cs)
  | 'n' :: cs => .ok ('\n', cs)
  | 'r' :: cs => .ok ('\r', cs)
  | 't' :: cs => .ok ('\t', cs)
  | 'u' :: cs => do
    let (code, rest) ← parseHex4 cs
    if 0xD800 ≤ code ∧ code < 0xE000 then .error "unsupported \\u surrogate half"
    else .ok (Char.ofNat code, rest)
  | c :: _ => .error s!"invalid escape '\\{byteChar c}'"

/-- The body of a string after its opening quote; `out` is reversed. -/
def parseStringBody : Nat → List Char → List Char → Except String (String × List Char)
  | 0, _, _ => .error "unterminated JSON string"
  | _, [], _ => .error "unterminated JSON string"
  | fuel + 1, c :: cs, out =>
    if c = '"' then .ok (String.ofList out.reverse, cs)
    else if c = '\\' then do
      let (ch, rest) ← parseEscape cs
      parseStringBody fuel rest (ch :: out)
    else if c.toNat < 0x20 then .error "unescaped control character in string"
    else parseStringBody fuel cs (c :: out)

def parseString (cs : List Char) : Except String (String × List Char) := do
  let rest ← expectByte '"' "'\"'" cs
  parseStringBody (rest.length + 1) rest []

/-- Sorted insertion; `none` when the key is present. -/
def insertField (key : String) (value : JsonVal) :
    List (String × JsonVal) → Option (List (String × JsonVal))
  | [] => some [(key, value)]
  | (k, v) :: rest =>
    if key = k then none
    else if key < k then some ((key, value) :: (k, v) :: rest)
    else (insertField key value rest).map ((k, v) :: ·)

theorem insertField_before {key k : String} (hne : key ≠ k) (hlt : key < k) (value v : JsonVal)
    (rest : List (String × JsonVal)) :
    insertField key value ((k, v) :: rest) = some ((key, value) :: (k, v) :: rest) := by
  rw [insertField, if_neg hne, if_pos hlt]

theorem insertField_behind {key k : String} (hne : key ≠ k) (hle : ¬ key < k) (value v : JsonVal)
    (rest : List (String × JsonVal)) :
    insertField key value ((k, v) :: rest) = (insertField key value rest).map ((k, v) :: ·) := by
  rw [insertField, if_neg hne, if_neg hle]

section Loops

variable (value : List Char → Except String (JsonVal × List Char))

def parseFields : Nat → List Char → List (String × JsonVal) → Except String (JsonVal × List Char)
  | 0, _, _ => .error "unterminated object"
  | fuel + 1, cs, fields => do
    let cs := skipWs cs
    if cs.head? ≠ some '"' then .error "expected string key in object"
    else
      let (key, cs) ← parseString cs
      let cs ← expectByte ':' "':'" (skipWs cs)
      let (val, cs) ← value cs
      match insertField key val fields with
      | none => .error s!"duplicate key '{key}'"
      | some fields =>
        match skipWs cs with
        | ',' :: cs => parseFields fuel cs fields
        | '\x7d' :: cs => .ok (.object fields, cs)
        | c :: _ => .error s!"expected ',' or '\x7d', got '{byteChar c}'"
        | [] => .error "unterminated object"

def parseItems : Nat → List Char → List JsonVal → Except String (JsonVal × List Char)
  | 0, _, _ => .error "unterminated array"
  | fuel + 1, cs, items => do
    let (val, cs) ← value cs
    match skipWs cs with
    | ',' :: cs => parseItems fuel cs (val :: items)
    | ']' :: cs => .ok (.array (val :: items).reverse, cs)
    | c :: _ => .error s!"expected ',' or ']', got '{byteChar c}'"
    | [] => .error "unterminated array"

end Loops

/-- A value with `budget` levels of nesting left. -/
def parseValue : (budget : Nat) → List Char → Except String (JsonVal × List Char)
  | 0, _ => .error "JSON nesting exceeds PR02 bound (16)"
  | budget + 1, cs =>
    match skipWs cs with
    | '\x7b' :: cs =>
      match skipWs cs with
      | '\x7d' :: cs => .ok (.object [], cs)
      | cs => parseFields (parseValue budget) (cs.length + 1) cs []
    | '[' :: cs =>
      match skipWs cs with
      | ']' :: cs => .ok (.array [], cs)
      | cs => parseItems (parseValue budget) (cs.length + 1) cs []
    | '"' :: cs => (parseString ('"' :: cs)).map fun (s, rest) => (.str s, rest)
    | 't' :: cs => parseLiteral "true" (.bool true) ('t' :: cs)
    | 'f' :: cs => parseLiteral "false" (.bool false) ('f' :: cs)
    | 'n' :: cs => parseLiteral "null" .null ('n' :: cs)
    | c :: cs =>
      if c = '-' ∨ c.isDigit then (parseNumber (c :: cs)).map fun (raw, rest) => (.number raw, rest)
      else .error s!"unexpected character '{byteChar c}'"
    | [] => .error "unexpected end of input"

/-- Parses any top-level JSON value. -/
def parse (text : String) : Except DomainError JsonVal :=
  match parseValue 17 text.toList with
  | .error message => .error (.json message)
  | .ok (value, rest) =>
    if skipWs rest = [] then .ok value else .error (.json "trailing characters after JSON value")

def parseObject (text : String) : Except DomainError (List (String × JsonVal)) := do
  match ← parse text with
  | .object fields => .ok fields
  | _ => .error (.json "expected a JSON object")

def kindOf : JsonVal → String
  | .null => "null"
  | .bool _ => "boolean"
  | .number _ => "number"
  | .str _ => "string"
  | .array _ => "array"
  | .object _ => "object"

def getString (fields : List (String × JsonVal)) (name : String) : Except DomainError String :=
  match fields.lookup name with
  | none => .error (.missingField name)
  | some (.str s) => .ok s
  | some other => .error (.json s!"field '{name}' must be a JSON string, got {kindOf other}")

def getBool (fields : List (String × JsonVal)) (name : String) : Except DomainError Bool :=
  match fields.lookup name with
  | none => .error (.missingField name)
  | some (.bool b) => .ok b
  | some other => .error (.json s!"field '{name}' must be true/false, got {kindOf other}")

def rejectUnknown (fields : List (String × JsonVal)) (allowed : List String) : Except DomainError Unit :=
  match fields.find? fun f => !allowed.contains f.1 with
  | some (key, _) => .error (.unexpectedField key)
  | none => .ok ()

end Json

end Verdant
