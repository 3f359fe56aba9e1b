import Verdant.Library.Delimited
import Verdant.Library.Frames
import Verdant.Semantics.Reconcile

/-!
# Sealed profiles

The bytes that pin the meaning of a report and a plan: the digest of the ledger, the rows, and the statements of the plan
factored into a dictionary of their parts.  They leave in chunks that never split a character.
-/

namespace Verdant.Semantics

open Prog TextCodec

inductive ProfileError where
  | invalid (what : String)
  | limit
  | source (error : ParseError)
  | plan (error : MaterializeError)
  deriving DecidableEq, Repr

def profileFormat : String := "verdant-f02-s03-v1"

def profileFraming : String := "valid-structural-not-qualified;synthetic-fnv1a64-not-authority"

def maxPayloadBytes : Nat := 98304

def chunkBytes : Nat := 8192

/-! ### The ledger digest -/

def maxHashBytes : Nat := 7000000

def hexLower (c : Char) : Bool := ('0' ≤ c ∧ c ≤ '9') ∨ ('a' ≤ c ∧ c ≤ 'f')

def IsDigest (s : String) : Prop := s.utf8ByteSize = 64 ∧ s.toList.all hexLower = true

instance (s : String) : Decidable (IsDigest s) := by
  unfold IsDigest
  infer_instance

/-- What the hash tool prints for a text, unless it fails. -/
abbrev HashTool := String → Option String

def sha256 (tool : HashTool) (bytes : String) : Except ParseError String :=
  if maxHashBytes < bytes.utf8ByteSize then .error (.limit "hash bytes")
  else match tool bytes with
    | none => .error .hashTool
    | some text =>
      match "  -\n".toList.isSuffixOf? text.toList with
      | none => .error .hashTool
      | some hex => if IsDigest (String.ofList hex) then .ok (String.ofList hex) else .error .hashTool

/-- The tool is tried on a known text first. -/
def checkedHash (tool : HashTool) (bytes : String) : Except ProfileError String := do
  let known ← (sha256 tool "abc").mapError .source
  if known ≠ "ba7816bf8f01cfea414140de5dae2223b00361a396177a9cb410ff61f20015ad" then .error (.source .hashTool)
  else (sha256 tool bytes).mapError .source

def sortedTexts (texts : List String) : List String := (sortBy id texts).dedup

/-- The facts one after another, as long as they stay within the bound. -/
def ledgerBytes : List String → String → Except ProfileError String
  | [], bytes => .ok bytes
  | fact :: facts, bytes =>
    if maxHashBytes < bytes.utf8ByteSize + fact.utf8ByteSize then .error .limit else ledgerBytes facts (bytes ++ fact)

def ledgerDigest (tool : HashTool) (report : Report) : Except ProfileError String := do
  let bytes ← ledgerBytes (sortedTexts (report.ledger.map Fact.toJson)) ""
  checkedHash tool bytes

def pinsJson : String :=
  bracketed (sortedTexts (artifacts.map fun pin =>
    "\x7b\"name\":" ++ json pin.name ++ ",\"bytes\":" ++ Nat.repr pin.bytes ++ ",\"sha256\":" ++ json pin.sha256 ++
      ",\"provenance\":" ++ json pin.provenance ++ ",\"url\":" ++ json pin.url ++ "\x7d"))

def rowText (row : Row) : String :=
  "\x7b\"artifact\":" ++ json row.artifact ++ ",\"iri\":" ++ json row.iri ++ ",\"kind\":" ++ json row.kind ++
    ",\"direction\":" ++ json row.direction ++ "\x7d"

/-! ### Statements of a plan -/

/-- The adapter of a store that holds everything: it records what is read. -/
def recordReads (st : Statement) (reads : List String) : List String × NativeAnswer st :=
  (reads ++ [st.text], .ok (some 1))

structure Recording where
  call : Nat
  inserts : List String

/-- The adapter of an empty store, which holds every call to its place in the protocol. -/
def recordWrites (reads : List String) (st : Statement) (recording : Recording) : Recording × NativeAnswer st :=
  let n := reads.length / 2
  let at' := recording.call
  let next : Recording := { recording with call := recording.call + 1 }
  if at' < n then
    if reads[at' * 2]? ≠ some st.text then (next, .error .unexpectedOutcome) else (next, .ok (some 0))
  else
    let step := (at' - n) / 3
    match (at' - n) % 3 with
    | 0 => ({ next with inserts := next.inserts ++ [st.text] }, .ok none)
    | position + 1 =>
      if reads[step * 2 + position]? ≠ some st.text then (next, .error .unexpectedOutcome) else (next, .ok (some 1))

def pairs : List String → List (String × String)
  | a :: b :: rest => (a, b) :: pairs rest
  | _ => []

/-- The statements of a plan, by its own protocol. -/
def captureTriples (plan : Plan) : Except ProfileError (List (String × String × String)) := do
  let (reads, answer) := plan.reconcile.run.serve recordReads []
  let count ← answer.mapError .plan
  if count ≠ 0 ∨ reads.length % 2 ≠ 0 then .error (.invalid "plan read protocol")
  else
    let n := reads.length / 2
    let (recording, answer) := plan.reconcile.run.serve (recordWrites reads) ⟨0, []⟩
    let count ← answer.mapError .plan
    if count ≠ n ∨ recording.inserts.length ≠ n ∨ recording.call ≠ n * 4 then .error (.invalid "plan insert protocol")
    else .ok (((pairs reads).zip recording.inserts).map fun ((identity, exact), insert) => (identity, exact, insert))

/-- The parts of a statement, its quoted literals apart from what is between them; `part` is the one that is open. -/
def segmentsFrom : (quoted escaped : Bool) → List Char → List Char → Except ProfileError (List String)
  | true, _, _, [] => .error (.invalid "unterminated statement literal")
  | false, _, part, [] => .ok (if part = [] then [] else [String.ofList part])
  | true, true, part, c :: cs => segmentsFrom true false (part ++ [c]) cs
  | true, false, part, c :: cs =>
    if c = '\\' then segmentsFrom true true (part ++ [c]) cs
    else if c = '"' then do
      let rest ← segmentsFrom false false [] cs
      .ok (String.ofList (part ++ [c]) :: rest)
    else segmentsFrom true false (part ++ [c]) cs
  | false, _, part, c :: cs =>
    if c = '"' then do
      let rest ← segmentsFrom true false [c] cs
      .ok (if part = [] then rest else String.ofList part :: rest)
    else segmentsFrom false false (part ++ [c]) cs

def segments (text : String) : Except ProfileError (List String) := segmentsFrom false false [] text.toList

abbrev Indices := List Nat × List Nat × List Nat

/-- A dictionary of parts, and each statement by the places of its parts. -/
structure Factored where
  dictionary : List String
  steps : List Indices

def placesOf (dictionary : List String) (parts : List String) : Except ProfileError (List Nat) :=
  parts.mapM fun part =>
    if part ∈ dictionary then .ok (dictionary.idxOf part) else .error (.invalid "statement dictionary")

def factor (triples : List (String × String × String)) : Except ProfileError Factored := do
  let parts ← triples.mapM fun (identity, exact, insert) => do
    let identity ← segments identity
    let exact ← segments exact
    let insert ← segments insert
    .ok (identity, exact, insert)
  let dictionary := sortedTexts (parts.flatMap fun (identity, exact, insert) => identity ++ exact ++ insert)
  let steps ← parts.mapM fun (identity, exact, insert) => do
    let identity ← placesOf dictionary identity
    let exact ← placesOf dictionary exact
    let insert ← placesOf dictionary insert
    .ok (identity, exact, insert)
  .ok ⟨dictionary, steps⟩

def placesText (places : List Nat) : String := bracketed (places.map Nat.repr)

def indicesText (indices : Indices) : String :=
  "\x7b" ++ json "identity" ++ ":" ++ placesText indices.1 ++ "," ++ json "exact" ++ ":" ++ placesText indices.2.1 ++ "," ++
    json "insert" ++ ":" ++ placesText indices.2.2 ++ "\x7d"

def Factored.text (factored : Factored) : String :=
  "\x7b\"dictionary\":" ++ bracketed (factored.dictionary.map json) ++ ",\"steps\":" ++
    bracketed (sortedTexts (factored.steps.map indicesText)) ++ "\x7d"

def captureSteps (plan : Plan) : Except ProfileError String := do
  let triples ← captureTriples plan
  let factored ← factor triples
  .ok factored.text

/-! ### Profiles -/

structure SealedProfile where
  bytes : String
  ledgerDigest : String
  deriving DecidableEq, Repr

def SealedProfile.capture (tool : HashTool) (report : Report) (plan : Plan) : Except ProfileError SealedProfile := do
  let digest ← Semantics.ledgerDigest tool report
  let rows := sortedTexts (report.rows.map rowText)
  let steps ← captureSteps plan
  let bytes := encodeFrames [profileFormat, recipeId, profileFraming, pinsJson, digest, bracketed rows, steps]
  if maxPayloadBytes < bytes.utf8ByteSize then .error .limit else .ok ⟨bytes, digest⟩

/-! ### Chunks -/

/-- The last character boundary up to so many bytes. -/
def floorBoundary (cs : List Char) : Nat → Nat
  | 0 => 0
  | n + 1 => if (takeBytes (n + 1) cs).isSome then n + 1 else floorBoundary cs n

theorem floorBoundary_le (cs : List Char) (n : Nat) : floorBoundary cs n ≤ n := by
  induction n with
  | zero => exact Nat.le_refl 0
  | succ n ih =>
    unfold floorBoundary
    split
    · exact Nat.le_refl _
    · exact Nat.le_succ_of_le ih

theorem isSome_floorBoundary (cs : List Char) (n : Nat) : (takeBytes (floorBoundary cs n) cs).isSome := by
  induction n with
  | zero => cases cs <;> rfl
  | succ n ih =>
    unfold floorBoundary
    split
    · assumption
    · exact ih

theorem le_floorBoundary {cs : List Char} {m n : Nat} (hm : m ≤ n) (hcut : (takeBytes m cs).isSome) :
    m ≤ floorBoundary cs n := by
  induction n with
  | zero => exact hm
  | succ n ih =>
    unfold floorBoundary
    split
    · exact hm
    · rename_i hnone
      refine ih (Nat.le_of_lt_succ (lt_of_le_of_ne hm ?_))
      rintro rfl
      exact hnone hcut

def size (cs : List Char) : Nat := (cs.map Char.utf8Size).sum

theorem size_append (a b : List Char) : size (a ++ b) = size a + size b := by
  simp [size]

theorem size_cons (c : Char) (cs : List Char) : size (c :: cs) = c.utf8Size + size cs := by
  simp [size]

/-- The next chunk and the rest; at a boundary the slice cannot fail. -/
def cutChunk (cs : List Char) : List Char × List Char :=
  (takeBytes (floorBoundary cs (min chunkBytes (size cs))) cs).getD ([], cs)

theorem cutChunk_spec (cs : List Char) :
    cs = (cutChunk cs).1 ++ (cutChunk cs).2 ∧ size (cutChunk cs).1 = floorBoundary cs (min chunkBytes (size cs)) := by
  obtain ⟨⟨front, rest⟩, hcut⟩ := Option.isSome_iff_exists.1 (isSome_floorBoundary cs (min chunkBytes (size cs)))
  unfold cutChunk
  rw [hcut]
  exact takeBytes_eq_some hcut

theorem size_cutChunk_le (cs : List Char) : size (cutChunk cs).1 ≤ chunkBytes := by
  rw [(cutChunk_spec cs).2]
  exact (floorBoundary_le _ _).trans (min_le_left _ _)

/-- Whatever fits in a chunk is cut no earlier. -/
theorem le_size_cutChunk {front rest : List Char} (hfits : size front ≤ chunkBytes) :
    size front ≤ size (cutChunk (front ++ rest)).1 := by
  rw [(cutChunk_spec _).2]
  refine le_floorBoundary (le_min hfits ?_) ?_
  · rw [size_append]
    exact Nat.le_add_right _ _
  · rw [size, takeBytes_append]
    rfl

theorem cutChunk_ne_nil {cs : List Char} (h : cs ≠ []) : (cutChunk cs).1 ≠ [] := by
  obtain ⟨c, rest, rfl⟩ := List.exists_cons_of_ne_nil h
  have hpos := c.utf8Size_pos
  have hle := c.utf8Size_le_four
  have hfits : size [c] ≤ chunkBytes := by
    rw [size_cons]
    exact hle.trans (by decide)
  have hfirst : size [c] ≤ size (cutChunk ([c] ++ rest)).1 := le_size_cutChunk hfits
  intro hnil
  rw [List.singleton_append, hnil, size_cons] at hfirst
  simp only [size, List.map_nil, List.sum_nil] at hfirst
  omega

theorem length_cutChunk_lt {cs : List Char} (h : cs ≠ []) : (cutChunk cs).2.length < cs.length := by
  have hparts := congrArg List.length (cutChunk_spec cs).1
  have hfront := List.length_pos_iff.2 (cutChunk_ne_nil h)
  rw [List.length_append] at hparts
  omega

/-- A chunk that leaves something is as full as its next character allows. -/
theorem full_cutChunk {cs : List Char} (h : (cutChunk cs).2 ≠ []) : 8189 ≤ size (cutChunk cs).1 := by
  obtain ⟨d, rest, hrest⟩ := List.exists_cons_of_ne_nil h
  have hle := d.utf8Size_le_four
  by_contra hshort
  have hfits : size ((cutChunk cs).1 ++ [d]) ≤ chunkBytes := by
    rw [size_append, size_cons]
    simp only [size, List.map_nil, List.sum_nil, chunkBytes] at hshort ⊢
    omega
  have hmore : _ ≤ size (cutChunk (_ ++ rest)).1 := le_size_cutChunk hfits
  have hwhole : (cutChunk cs).1 ++ [d] ++ rest = cs := by
    rw [List.append_assoc, List.singleton_append, ← hrest, ← (cutChunk_spec cs).1]
  have hpos := d.utf8Size_pos
  rw [hwhole, size_append, size_cons] at hmore
  omega

def chunks (cs : List Char) : List (List Char) :=
  if h : cs = [] then [] else (cutChunk cs).1 :: chunks (cutChunk cs).2
termination_by cs.length
decreasing_by exact length_cutChunk_lt h

theorem flatten_chunks (cs : List Char) : (chunks cs).flatten = cs := by
  fun_induction chunks cs with
  | case1 => rfl
  | case2 cs h ih => rw [List.flatten_cons, ih, ← (cutChunk_spec cs).1]

theorem of_mem_chunks {cs chunk : List Char} (h : chunk ∈ chunks cs) : chunk ≠ [] ∧ size chunk ≤ chunkBytes := by
  fun_induction chunks cs with
  | case1 => exact (List.not_mem_nil h).elim
  | case2 cs hcs ih =>
    rcases List.mem_cons.1 h with rfl | hrest
    · exact ⟨cutChunk_ne_nil hcs, size_cutChunk_le cs⟩
    · exact ih hrest

/-- All chunks but the last are nearly full. -/
theorem length_chunks_lt {cs : List Char} (h : cs ≠ []) : (chunks cs).length * 8189 < size cs + 8189 := by
  fun_induction chunks cs with
  | case1 => exact absurd rfl h
  | case2 cs hcs ih =>
    have hsize := congrArg size (cutChunk_spec cs).1
    rw [size_append] at hsize
    by_cases hrest : (cutChunk cs).2 = []
    · have hlast : chunks (cutChunk cs).2 = [] := by
        rw [hrest, chunks]
        rfl
      obtain ⟨c, rest, rfl⟩ := List.exists_cons_of_ne_nil hcs
      have hpos := c.utf8Size_pos
      rw [List.length_cons, hlast, List.length_nil, size_cons]
      omega
    · have hfull := full_cutChunk hrest
      have hfew := ih hrest
      rw [List.length_cons, Nat.succ_mul, hsize]
      exact Nat.add_lt_add_right (hfew.trans_le (by rw [Nat.add_comm]; exact Nat.add_le_add_right hfull _)) _

/-- Deterministic chunks of the profile. -/
def SealedProfile.payloads (profile : SealedProfile) : List String := (chunks profile.bytes.toList).map String.ofList

/-! ### Reading the chunks -/

def profileWords : FrameWords ProfileError where
  bytes := .limit
  fields := .invalid "field count"
  framing := .invalid "field length"
  boundary := .invalid "field boundary"

def profileNumber : String → Except ProfileError Nat :=
  spelled parseU64 Nat.repr (.invalid "field length") (.invalid "field boundary")

def unframe (raw : String) (limit : Nat) : Except ProfileError (List String) :=
  decodeFields profileWords profileNumber limit raw.toList

def joinPayloads : List String → String → Except ProfileError String
  | [], bytes => .ok bytes
  | payload :: rest, bytes =>
    if payload = "" ∨ chunkBytes < payload.utf8ByteSize ∨ maxPayloadBytes < bytes.utf8ByteSize + payload.utf8ByteSize then
      .error .limit
    else joinPayloads rest (bytes ++ payload)

def SealedProfile.fromPayloads (payloads : List String) : Except ProfileError SealedProfile :=
  if payloads = [] ∨ maxPayloadBytes / chunkBytes + 1 < payloads.length then .error .limit
  else do
    let bytes ← joinPayloads payloads ""
    let fields ← unframe bytes 7
    match fields with
    | [format, recipe, framing, pins, digest, _, _] =>
      if format ≠ profileFormat ∨ recipe ≠ recipeId ∨ framing ≠ profileFraming ∨ pins ≠ pinsJson ∨ ¬ IsDigest digest then
        .error (.invalid "profile format/pins/digest")
      else
        let result : SealedProfile := ⟨bytes, digest⟩
        if result.payloads ≠ payloads then .error (.invalid "chunk boundaries") else .ok result
    | _ => .error (.invalid "profile format/pins/digest")

end Verdant.Semantics
