import Verdant.Domain.JsonText
import Verdant.Storage.OutboxRow

/-!
# The projection codec

The observation owner keeps its state and its rows as texts of a closed grammar: string, null, object.  String escaping
is the domain's text codec, with the frame of a text value trimmed off its encoding (`literal_eq`).  What `encode`
writes, `object` reads back or refuses (`object_encode`); it refuses by size only (`object_encode_shallow`): nesting
beyond four, more than 64 fields, more than 8 MiB.
-/

namespace Verdant.Observation

open Storage

/-- Projected value; the fields of an object are sorted by key. -/
inductive JsonVal where
  | null
  | str (s : String)
  | object (fields : List (String × JsonVal))

abbrev Object := List (String × JsonVal)

def invalid (detail : String) : StorageError := .invalidRecord detail

/-! ### Encoding -/

/-- Takes a word off the front as often as it stands there. -/
def trimStartMatches (word : List Char) : (fuel : Nat) → List Char → List Char
  | 0, cs => cs
  | fuel + 1, cs => if word.isPrefixOf cs then trimStartMatches word fuel (cs.drop word.length) else cs

/-- What stands between the frame of a text value and its closing braces. -/
def trimFrame (frame encoded : List Char) : List Char :=
  (trimStartMatches frame encoded.length encoded).rdropWhile (· = '\x7d')

/-- The literal of a string: the encoding of the text value, the frame around the literal trimmed off. -/
def literal (s : String) : String :=
  String.ofList (trimFrame "\x7b\"type\":\"text\",\"value\":".toList (Value.text s).toJson.toList)

/-- A literal stands between quotes, so trimming the frame takes nothing off it, whatever the string is. -/
theorem trimFrame_quoted {frame : List Char} (hframe : frame.head? = some '\x7b') (cs : List Char) :
    trimFrame frame (frame ++ '"' :: (cs ++ ['"']) ++ ['\x7d']) = '"' :: (cs ++ ['"']) := by
  obtain ⟨more, rfl⟩ : ∃ more, frame = '\x7b' :: more := by
    cases frame with
    | nil => exact nomatch hframe
    | cons c more => exact ⟨more, by rw [Option.some.inj hframe]⟩
  have hprefix : ('\x7b' :: more).isPrefixOf ('\x7b' :: more ++ ('"' :: (cs ++ ['"']) ++ ['\x7d'])) = true :=
    List.isPrefixOf_iff_prefix.2 (List.prefix_append _ _)
  -- the frame stands there once: the literal behind it starts with a quote
  have hstop : ('\x7b' :: more).isPrefixOf ('"' :: (cs ++ ['"']) ++ ['\x7d']) = false := by
    rw [List.cons_append, List.isPrefixOf]
    rfl
  have hfront : trimStartMatches ('\x7b' :: more) ('\x7b' :: more ++ '"' :: (cs ++ ['"']) ++ ['\x7d']).length
      ('\x7b' :: more ++ '"' :: (cs ++ ['"']) ++ ['\x7d']) = '"' :: (cs ++ ['"']) ++ ['\x7d'] := by
    have hlength : ('\x7b' :: more ++ '"' :: (cs ++ ['"']) ++ ['\x7d']).length =
        (more.length + cs.length + 2) + 1 + 1 := by
      simp only [List.length_append, List.length_cons, List.length_nil]
      omega
    rw [hlength, List.append_assoc, trimStartMatches, if_pos hprefix, List.drop_left, trimStartMatches, hstop]
    rfl
  rw [trimFrame, hfront, List.rdropWhile_concat_pos _ _ _ (by decide), ← List.cons_append,
    List.rdropWhile_concat_neg _ _ _ (by decide)]

theorem toList_framed (front s back : String) :
    (front ++ Json.quote s ++ back).toList =
      front.toList ++ '"' :: (Json.quotedChars s.toList ++ ['"']) ++ back.toList := by
  rw [String.toList_append, String.toList_append, Json.toList_quote]

theorem literal_eq (s : String) : literal s = Json.quote s := by
  have hchars := @trimFrame_quoted "\x7b\"type\":\"text\",\"value\":".toList rfl (Json.quotedChars s.toList)
  have htrim : literal s = String.ofList ('"' :: (Json.quotedChars s.toList ++ ['"'])) :=
    congrArg String.ofList ((congrArg (trimFrame _) (toList_framed _ s _)).trans hchars)
  rw [htrim, ← Json.toList_quote, String.ofList_toList]

attribute [irreducible] literal

mutual

def encodeValue : JsonVal → String
  | .null => "null"
  | .str s => literal s
  | .object fields => "\x7b" ++ encodeFields fields ++ "\x7d"

/-- The members between the braces. -/
def encodeFields : List (String × JsonVal) → String
  | [] => ""
  | [(key, value)] => literal key ++ ":" ++ encodeValue value
  | (key, value) :: rest => literal key ++ ":" ++ encodeValue value ++ "," ++ encodeFields rest

end

def encode (fields : Object) : String := encodeValue (.object fields)

/-! ### Decoding -/

/-- A string literal up to its closing quote, after its opening one, and what follows it. -/
def scanLiteral : (escaped : Bool) → List Char → Option (List Char × List Char)
  | _, [] => none
  | true, c :: cs => (scanLiteral false cs).map fun p => (c :: p.1, p.2)
  | false, c :: cs =>
    if c = '\\' then (scanLiteral true cs).map fun p => (c :: p.1, p.2)
    else if c = '"' then some ([c], cs)
    else (scanLiteral false cs).map fun p => (c :: p.1, p.2)

/-- The text of a literal, read by the domain's codec. -/
def decodeLiteral (literal : String) : Except StorageError String :=
  match Value.fromJson ("\x7b\"type\":\"text\",\"value\":" ++ literal ++ "\x7d") with
  | .error e => .error (invalid e.display)
  | .ok (.text s) => .ok s
  | .ok _ => .error (invalid "text")

/-- Sorted insertion, and whether the key was there. -/
def insertField (key : String) (value : JsonVal) : Object → Object
  | [] => [(key, value)]
  | (k, v) :: rest =>
    if key = k then (key, value) :: rest
    else if key < k then (key, value) :: (k, v) :: rest
    else (k, v) :: insertField key value rest

def parseFields (value : List Char → Except StorageError (JsonVal × List Char)) :
    Nat → List Char → Object → Except StorageError (JsonVal × List Char)
  | 0, _, _ => .error (invalid "projection comma")
  | fuel + 1, cs, fields => do
    match ← value cs with
    | (.str key, ':' :: cs) =>
      let (val, cs) ← value cs
      let present := (fields.lookup key).isSome
      let fields := insertField key val fields
      if present ∨ 64 < fields.length then .error (invalid "duplicate/excess projection fields")
      else match cs with
        | '\x7d' :: cs => .ok (.object fields, cs)
        | ',' :: cs => parseFields value fuel cs fields
        | _ => .error (invalid "projection comma")
    | (.str _, _) => .error (invalid "projection colon")
    | _ => .error (invalid "projection key")

/-- A value with `budget` levels of nesting left. -/
def parseValue : (budget : Nat) → List Char → Except StorageError (JsonVal × List Char)
  | 0, _ => .error (invalid "projection nesting")
  | budget + 1, cs =>
    match cs with
    | '"' :: rest =>
      match scanLiteral false rest with
      | none => .error (invalid "unterminated projection string")
      | some (literal, rest) => do
        let s ← decodeLiteral (String.ofList ('"' :: literal))
        .ok (.str s, rest)
    | '\x7b' :: '\x7d' :: rest => .ok (.object [], rest)
    | '\x7b' :: rest => parseFields (parseValue budget) (rest.length + 1) rest []
    | cs =>
      if "null".toList.isPrefixOf cs then .ok (.null, cs.drop 4) else .error (invalid "projection object")

def object (raw : String) : Except StorageError Object :=
  if 8 * 1024 * 1024 < raw.utf8ByteSize then .error (invalid "projection bytes")
  else do
    match ← parseValue 5 raw.toList with
    | (.object fields, []) => .ok fields
    | _ => .error (invalid "projection framing")

/-! ### Fields -/

def text (fields : Object) (key : String) : Except StorageError String :=
  match fields.lookup key with
  | some (.str s) => .ok s
  | _ => .error (invalid key)

def number (fields : Object) (key : String) : Except StorageError Nat := do
  let raw ← text fields key
  match parseU64 raw with
  | some n => .ok n
  | none => .error (invalid key)

def signed (fields : Object) (key : String) : Except StorageError Int := do
  let raw ← text fields key
  match parseI64 raw with
  | some n => .ok n
  | none => .error (invalid key)

def put (fields : Object) (key value : String) : Object := insertField key (.str value) fields

/-! ### What is encoded reads back -/

/-- Keys strictly ascend at every level. -/
inductive JsonVal.Sorted : JsonVal → Prop where
  | null : Sorted .null
  | str (s : String) : Sorted (.str s)
  | object (fields : Object) (keys : (fields.map Prod.fst).Pairwise (· < ·))
    (values : ∀ f ∈ fields, f.2.Sorted) : Sorted (.object fields)

theorem JsonVal.Sorted.fields {fields : Object} (h : (JsonVal.object fields).Sorted) :
    (fields.map Prod.fst).Pairwise (· < ·) ∧ ∀ f ∈ fields, f.2.Sorted := by
  cases h with
  | object _ hkeys hvalues => exact ⟨hkeys, hvalues⟩

theorem scanLiteral_plain {cs : List Char} (hquote : '"' ∉ cs) (hback : '\\' ∉ cs) (rest : List Char) :
    scanLiteral false (cs ++ rest) = (scanLiteral false rest).map fun p => (cs ++ p.1, p.2) := by
  induction cs with
  | nil =>
    rw [List.nil_append]
    cases scanLiteral false rest <;> rfl
  | cons c cs ih =>
    rw [List.mem_cons, not_or] at hquote hback
    have hrest := ih hquote.2 hback.2
    rw [List.cons_append, scanLiteral, if_neg (Ne.symm hback.1), if_neg (Ne.symm hquote.1), hrest, Option.map_map]
    rfl

theorem scanLiteral_quotedChars (cs rest : List Char) :
    scanLiteral false (Json.quotedChars cs ++ '"' :: rest) = some (Json.quotedChars cs ++ ['"'], rest) := by
  induction cs with
  | nil => simp [scanLiteral]
  | cons c cs ih =>
    rw [Json.quotedChars_cons, List.append_assoc, List.append_assoc]
    rcases Json.quoteChar_cases c with ⟨hplain, hquote, hback, -⟩ | ⟨escape, hescape, -, first, more, rfl, hq, hb⟩
    · rw [hplain, scanLiteral_plain (by simpa using hquote.symm) (by simpa using hback.symm), ih]
      rfl
    · -- the character after the backslash is skipped, whatever it is
      rw [hescape, List.cons_append, List.cons_append, scanLiteral, if_pos rfl, scanLiteral, scanLiteral_plain hq hb, ih]
      rfl

theorem decodeLiteral_quote (raw : String) : decodeLiteral (Json.quote raw) = .ok raw := by
  unfold decodeLiteral
  have hread := Json.fromJson_text raw
  simp only [hread]

theorem parseValue_quote (budget : Nat) (raw : String) (rest : List Char) :
    parseValue (budget + 1) ((Json.quote raw).toList ++ rest) = .ok (.str raw, rest) := by
  have hscan := scanLiteral_quotedChars raw.toList rest
  have hliteral : String.ofList ('"' :: (Json.quotedChars raw.toList ++ ['"'])) = Json.quote raw := by
    rw [← Json.toList_quote, String.ofList_toList]
  rw [Json.toList_quote, List.cons_append, List.append_assoc, List.singleton_append, parseValue, hscan]
  simp only [hliteral, decodeLiteral_quote, Result.ok_bind]

theorem insertField_last {fields : Object} {key : String} (h : ∀ k ∈ fields.map Prod.fst, k < key) (value : JsonVal) :
    insertField key value fields = fields ++ [(key, value)] := by
  induction fields with
  | nil => rfl
  | cons field fields ih =>
    obtain ⟨k, v⟩ := field
    have hk : k < key := h k (by simp)
    have hrest := ih fun k' hk' => h k' (List.mem_cons_of_mem _ hk')
    rw [insertField, if_neg (ne_of_gt hk), if_neg (not_lt_of_gt hk), hrest]
    rfl

theorem encodeFields_cons (key : String) (value : JsonVal) (fields : Object) :
    (encodeFields ((key, value) :: fields)).toList = (Json.quote key).toList ++ ':' :: ((encodeValue value).toList ++
      (if fields = [] then [] else ',' :: (encodeFields fields).toList)) := by
  cases fields with
  | nil => simp [encodeFields, literal_eq]
  | cons next fields =>
    rw [encodeFields]
    · simp [literal_eq]
    · simp

theorem lookup_eq_none {fields : Object} {key : String} (h : ∀ k ∈ fields.map Prod.fst, k < key) :
    fields.lookup key = none := by
  rw [List.lookup_eq_none_iff]
  intro field hfield
  have hlt := h field.1 (List.mem_map_of_mem hfield)
  simpa using ne_of_gt hlt

/-- The members of an object are read with one level of nesting less. -/
theorem parseValue_fields (field : String × JsonVal) (fields : Object) (budget : Nat) (rest : List Char) :
    parseValue (budget + 1) ('\x7b' :: ((encodeFields (field :: fields)).toList ++ '\x7d' :: rest)) =
      parseFields (parseValue budget) (((encodeFields (field :: fields)).toList ++ '\x7d' :: rest).length + 1)
        ((encodeFields (field :: fields)).toList ++ '\x7d' :: rest) [] := by
  rw [encodeFields_cons, Json.toList_quote]
  rfl

mutual

/-- A value that is read back is the encoded one. -/
theorem parseValue_encode : ∀ (value : JsonVal) (budget : Nat) (rest : List Char) (out : JsonVal × List Char),
    value.Sorted → parseValue budget ((encodeValue value).toList ++ rest) = .ok out → out = (value, rest)
  | _, 0, _, _, _, h => nomatch h
  | .null, budget + 1, rest, out, _, h => by
    simp [encodeValue, parseValue, List.isPrefixOf] at h
    exact h.symm
  | .str s, budget + 1, rest, out, _, h => by
    rw [encodeValue, literal_eq, parseValue_quote] at h
    exact (Except.ok.inj h).symm
  | .object [], budget + 1, rest, out, _, h => by
    simp [encodeValue, encodeFields, parseValue] at h
    exact h.symm
  | .object ((key, value) :: fields), budget + 1, rest, out, hsorted, h => by
    obtain ⟨hkeys, hvalues⟩ := hsorted.fields
    have hchars : (encodeValue (.object ((key, value) :: fields))).toList ++ rest =
        '\x7b' :: ((encodeFields ((key, value) :: fields)).toList ++ '\x7d' :: rest) := by
      rw [encodeValue]
      simp
    have hread := parseValue_fields (key, value) fields budget rest
    rw [hchars, hread] at h
    exact parseFields_encode ((key, value) :: fields) budget _ rest out [] (by simp) hvalues hkeys h

theorem parseFields_encode : ∀ (fields : Object) (budget fuel : Nat) (rest : List Char) (out : JsonVal × List Char)
    (front : Object), fields ≠ [] → (∀ f ∈ fields, f.2.Sorted) →
    ((front ++ fields).map Prod.fst).Pairwise (· < ·) →
    parseFields (parseValue budget) fuel ((encodeFields fields).toList ++ '\x7d' :: rest) front = .ok out →
    out = (.object (front ++ fields), rest)
  | [], _, _, _, _, _, hne, _, _, _ => absurd rfl hne
  | _, _, 0, _, _, _, _, _, _, h => nomatch h
  | _, 0, fuel + 1, _, _, _, _, _, _, h => nomatch h
  | (key, value) :: fields, budget + 1, fuel + 1, rest, out, front, _, hvalues, hkeys, h => by
    rw [encodeFields_cons, List.append_assoc, List.cons_append, parseFields, parseValue_quote, Result.ok_bind] at h
    simp only [List.append_assoc] at h
    obtain ⟨⟨read, cs⟩, hread, h⟩ := Result.bind_eq_ok.1 h
    have hvalue := parseValue_encode value (budget + 1) _ _ (hvalues _ List.mem_cons_self) hread
    obtain ⟨rfl, rfl⟩ := Prod.mk.inj hvalue
    have hbefore : ∀ k ∈ front.map Prod.fst, k < key := by
      intro k hk
      rw [List.map_append, List.pairwise_append] at hkeys
      exact hkeys.2.2 k hk key (by simp)
    simp only [lookup_eq_none hbefore, insertField_last hbefore] at h
    split at h
    · exact nomatch h
    cases fields with
    | nil => exact (Except.ok.inj h).symm
    | cons next fields =>
      have hmore := parseFields_encode (next :: fields) (budget + 1) fuel rest out (front ++ [(key, read)]) (by simp)
        (fun f hf => hvalues f (List.mem_cons_of_mem _ hf)) (by simpa using hkeys) h
      simpa using hmore

end

theorem lookup_insertField_self (fields : Object) (key : String) (value : JsonVal) :
    (insertField key value fields).lookup key = some value := by
  induction fields with
  | nil => exact List.lookup_cons_self
  | cons field fields ih =>
    obtain ⟨k, v⟩ := field
    rw [insertField]
    split
    · exact List.lookup_cons_self
    split
    · exact List.lookup_cons_self
    · rename_i hne _
      have hbeq : (key == k) = false := by simpa using hne
      simp only [List.lookup_cons, hbeq, ih]

theorem lookup_insertField_of_ne {key other : String} (h : other ≠ key) (fields : Object) (value : JsonVal) :
    (insertField key value fields).lookup other = fields.lookup other := by
  have hother : (other == key) = false := by simpa using h
  induction fields with
  | nil => simp only [insertField, List.lookup_cons, hother, List.lookup_nil]
  | cons field fields ih =>
    obtain ⟨k, v⟩ := field
    rw [insertField]
    split
    · rename_i hkey
      subst hkey
      simp only [List.lookup_cons, hother]
    split
    · rw [List.lookup_cons, hother]
    · rw [List.lookup_cons, List.lookup_cons, ih]

theorem mem_insertField {key : String} {value : JsonVal} {fields : Object} {field : String × JsonVal}
    (h : field ∈ insertField key value fields) : field = (key, value) ∨ field ∈ fields := by
  induction fields with
  | nil => simpa [insertField] using h
  | cons head fields ih =>
    rw [insertField] at h
    split at h
    · rcases List.mem_cons.1 h with h | h
      · exact .inl h
      · exact .inr (List.mem_cons_of_mem _ h)
    split at h
    · exact List.mem_cons.1 h
    · rcases List.mem_cons.1 h with rfl | h
      · exact .inr List.mem_cons_self
      · exact (ih h).imp_right (List.mem_cons_of_mem _)

theorem insertField_keys {key : String} {value : JsonVal} {fields : Object}
    (h : (fields.map Prod.fst).Pairwise (· < ·)) : ((insertField key value fields).map Prod.fst).Pairwise (· < ·) := by
  induction fields with
  | nil => simp [insertField]
  | cons head fields ih =>
    rw [List.map_cons, List.pairwise_cons] at h
    rw [insertField]
    split
    · rename_i hkey
      rw [List.map_cons, List.pairwise_cons, hkey]
      exact h
    split
    · rename_i hlt
      rw [List.map_cons, List.pairwise_cons]
      refine ⟨fun k hk => ?_, List.pairwise_cons.2 h⟩
      rcases List.mem_cons.1 hk with rfl | hk
      · exact hlt
      · exact lt_trans hlt (h.1 k hk)
    · rename_i hne hle
      rw [List.map_cons, List.pairwise_cons]
      refine ⟨fun k hk => ?_, ih h.2⟩
      obtain ⟨field, hfield, rfl⟩ := List.mem_map.1 hk
      rcases mem_insertField hfield with rfl | hfield
      · exact lt_of_le_of_ne (not_lt.1 hle) (Ne.symm hne)
      · exact h.1 _ (List.mem_map_of_mem hfield)

theorem sorted_insertField {fields : Object} (h : (JsonVal.object fields).Sorted) {value : JsonVal}
    (hvalue : value.Sorted) (key : String) : (JsonVal.object (insertField key value fields)).Sorted := by
  obtain ⟨hkeys, hvalues⟩ := h.fields
  refine .object _ (insertField_keys hkeys) fun field hfield => ?_
  rcases mem_insertField hfield with rfl | hfield
  · exact hvalue
  · exact hvalues field hfield

theorem sorted_put {fields : Object} (h : (JsonVal.object fields).Sorted) (key value : String) :
    (JsonVal.object (put fields key value)).Sorted := sorted_insertField h (.str value) key

theorem object_encode {fields : Object} (hsorted : (JsonVal.object fields).Sorted) {out : Object}
    (h : object (encode fields) = .ok out) : out = fields := by
  unfold object at h
  split at h
  · exact nomatch h
  obtain ⟨⟨value, rest⟩, hread, h⟩ := Result.bind_eq_ok.1 h
  rw [← List.append_nil (encode fields).toList] at hread
  have hvalue := parseValue_encode (.object fields) 5 [] _ hsorted hread
  obtain ⟨rfl, rfl⟩ := Prod.mk.inj hvalue
  exact (Except.ok.inj h).symm

/-! ### Within the bounds nothing is refused -/

/-- Strings sit at depth at most four, and an object has at most 64 fields. -/
inductive JsonVal.Shallow : (depth : Nat) → JsonVal → Prop where
  | null (depth : Nat) : Shallow depth .null
  | str {depth : Nat} (s : String) (within : depth ≤ 4) : Shallow depth (.str s)
  | object {depth : Nat} (fields : Object) (count : fields.length ≤ 64)
    (keys : ∀ f ∈ fields, (JsonVal.str f.1).Shallow (depth + 1))
    (values : ∀ f ∈ fields, f.2.Shallow (depth + 1)) : Shallow depth (.object fields)

theorem JsonVal.Shallow.str_le {depth : Nat} {s : String} (h : (JsonVal.str s).Shallow depth) : depth ≤ 4 := by
  cases h with
  | str _ within => exact within

theorem JsonVal.Shallow.fields {depth : Nat} {fields : Object} (h : (JsonVal.object fields).Shallow depth) :
    fields.length ≤ 64 ∧ (∀ f ∈ fields, depth + 1 ≤ 4) ∧ ∀ f ∈ fields, f.2.Shallow (depth + 1) := by
  cases h with
  | object _ count keys values => exact ⟨count, fun f hf => (keys f hf).str_le, values⟩

theorem length_le_encodeFields (fields : Object) : fields.length ≤ (encodeFields fields).toList.length := by
  induction fields with
  | nil => exact Nat.zero_le _
  | cons field fields ih =>
    obtain ⟨key, value⟩ := field
    rw [encodeFields_cons, List.length_append, List.length_cons, List.length_cons, List.length_append]
    by_cases hlast : fields = []
    · rw [if_pos hlast, hlast, List.length_nil]
      omega
    · rw [if_neg hlast, List.length_cons]
      omega

mutual

/-- The budget at a depth is what is left of five levels, so every string is within it. -/
theorem parseValue_shallow : ∀ (value : JsonVal) (depth budget : Nat) (rest : List Char), depth + (budget + 1) = 5 →
    value.Shallow depth → value.Sorted →
    parseValue (budget + 1) ((encodeValue value).toList ++ rest) = .ok (value, rest)
  | .null, _, budget, rest, _, _, _ => by
    simp [encodeValue, parseValue, List.isPrefixOf]
  | .str s, _, budget, rest, _, _, _ => by
    rw [encodeValue, literal_eq, parseValue_quote]
  | .object [], _, budget, rest, _, _, _ => by
    simp [encodeValue, encodeFields, parseValue]
  | .object ((key, value) :: fields), depth, budget, rest, hbudget, hshallow, hsorted => by
    obtain ⟨hcount, hdepth, hvalues⟩ := hshallow.fields
    obtain ⟨hkeys, hsortedValues⟩ := hsorted.fields
    have hchars : (encodeValue (.object ((key, value) :: fields))).toList ++ rest =
        '\x7b' :: ((encodeFields ((key, value) :: fields)).toList ++ '\x7d' :: rest) := by
      rw [encodeValue]
      simp
    have hread := parseValue_fields (key, value) fields budget rest
    have hfuel : ((key, value) :: fields).length ≤
        ((encodeFields ((key, value) :: fields)).toList ++ '\x7d' :: rest).length + 1 := by
      have hlength := length_le_encodeFields ((key, value) :: fields)
      rw [List.length_append]
      omega
    have hle := hdepth (key, value) List.mem_cons_self
    obtain ⟨less, rfl⟩ : ∃ less, budget = less + 1 := ⟨budget - 1, by omega⟩
    rw [hchars, hread]
    exact parseFields_shallow ((key, value) :: fields) (depth + 1) less _ rest [] (by simp) (by omega) hfuel
      (by simpa using hcount) hvalues hsortedValues hkeys

theorem parseFields_shallow : ∀ (fields : Object) (depth budget fuel : Nat) (rest : List Char) (front : Object),
    fields ≠ [] → depth + (budget + 1) = 5 → fields.length ≤ fuel → front.length + fields.length ≤ 64 →
    (∀ f ∈ fields, f.2.Shallow depth) → (∀ f ∈ fields, f.2.Sorted) →
    ((front ++ fields).map Prod.fst).Pairwise (· < ·) →
    parseFields (parseValue (budget + 1)) fuel ((encodeFields fields).toList ++ '\x7d' :: rest) front =
      .ok (.object (front ++ fields), rest)
  | [], _, _, _, _, _, hne, _, _, _, _, _, _ => absurd rfl hne
  | _ :: _, _, _, 0, _, _, _, _, hfuel, _, _, _, _ => absurd hfuel (by simp)
  | (key, value) :: fields, depth, budget, fuel + 1, rest, front, _, hbudget, hfuel, hcount, hvalues, hsorted, hkeys => by
    have hbefore : ∀ k ∈ front.map Prod.fst, k < key := by
      intro k hk
      rw [List.map_append, List.pairwise_append] at hkeys
      exact hkeys.2.2 k hk key (by simp)
    have hvalue := parseValue_shallow value depth budget
      ((if fields = [] then [] else ',' :: (encodeFields fields).toList) ++ '\x7d' :: rest) hbudget
      (hvalues _ List.mem_cons_self) (hsorted _ List.mem_cons_self)
    have hroom : (front ++ [(key, value)]).length + fields.length ≤ 64 := by
      simp only [List.length_append, List.length_cons, List.length_nil] at hcount ⊢
      omega
    have hmore : ¬ (((none : Option JsonVal).isSome = true) ∨ 64 < (front ++ [(key, value)]).length) := by
      simp only [Option.isSome_none, Bool.false_eq_true, false_or]
      omega
    rw [encodeFields_cons, List.append_assoc, List.cons_append, parseFields, parseValue_quote, Result.ok_bind]
    simp only [List.append_assoc, hvalue, Result.ok_bind, lookup_eq_none hbefore, insertField_last hbefore,
      if_neg hmore]
    cases fields with
    | nil => rfl
    | cons next fields =>
      have hlast := parseFields_shallow (next :: fields) depth budget fuel rest (front ++ [(key, value)]) (by simp)
        hbudget (Nat.le_of_succ_le_succ hfuel) hroom (fun f hf => hvalues f (List.mem_cons_of_mem _ hf))
        (fun f hf => hsorted f (List.mem_cons_of_mem _ hf)) (by simpa using hkeys)
      simpa using hlast

end

/-- Any projection within the bounds reads back as it was encoded, whatever its strings are made of. -/
theorem object_encode_shallow {fields : Object} (hsorted : (JsonVal.object fields).Sorted)
    (hshallow : (JsonVal.object fields).Shallow 0) (hsize : (encode fields).utf8ByteSize ≤ 8 * 1024 * 1024) :
    object (encode fields) = .ok fields := by
  have hread := parseValue_shallow (.object fields) 0 4 [] rfl hshallow hsorted
  rw [List.append_nil] at hread
  rw [object, if_neg (not_lt.2 hsize)]
  show (parseValue 5 (encodeValue (.object fields)).toList >>= _) = _
  rw [hread]
  rfl

/-- The frame as a key, braces as a value. -/
theorem object_encode_shallow_frame :
    object (encode [("\x7b\"type\":\"text\",\"value\":", .object [("\\", .str "\x7d\x7d")])]) =
      .ok [("\x7b\"type\":\"text\",\"value\":", .object [("\\", .str "\x7d\x7d")])] := by
  refine object_encode_shallow (.object _ (by simp) ?_) (.object _ (by decide) ?_ ?_) ?_
  · simp only [List.mem_singleton, forall_eq]
    exact .object _ (by simp) (by simpa using .str _)
  · simp only [List.mem_singleton, forall_eq]
    exact .str _ (by decide)
  · simp only [List.mem_singleton, forall_eq]
    refine .object _ (by decide) ?_ ?_
    · simpa using .str _ (by decide)
    · simpa using .str _ (by decide)
  · simp only [encode, encodeValue, encodeFields, literal_eq]
    decide

end Verdant.Observation
