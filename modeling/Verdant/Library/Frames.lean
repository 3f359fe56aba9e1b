import Verdant.Library.Result
import Verdant.Library.Text

/-!
# Length-prefixed fields

A list of texts as one text: each field after its length in bytes and a colon.  The reader takes the length, then that many
bytes, and refuses a length that ends inside a character.  With lengths in one spelling it reads the written texts and no
others (`decodeFrames_eq_ok`), so the writer is injective and no two readers differ in what they accept.
-/

namespace TextCodec

/-! ### Writing -/

def frame (field : String) : String := Nat.repr field.utf8ByteSize ++ ":" ++ field

def encodeFrames (fields : List String) : String := String.join (fields.map frame)

theorem toList_frame (field : String) :
    (frame field).toList = Nat.toDigits 10 field.utf8ByteSize ++ ':' :: field.toList := by
  have hcolon : ":".toList = [':'] := rfl
  unfold frame
  rw [String.toList_append, String.toList_append, Nat.toList_repr, hcolon, List.append_assoc]
  rfl

theorem toList_encodeFrames_cons (field : String) (fields : List String) :
    (encodeFrames (field :: fields)).toList = (frame field).toList ++ (encodeFrames fields).toList := by
  unfold encodeFrames
  rw [String.toList_join, String.toList_join, List.map_cons, List.flatMap_cons]

theorem utf8ByteSize_le_encodeFrames {field : String} {fields : List String} (h : field ∈ fields) :
    field.utf8ByteSize ≤ (encodeFrames fields).utf8ByteSize := by
  induction fields with
  | nil => exact nomatch h
  | cons first fields ih =>
    have hsplit : encodeFrames (first :: fields) = frame first ++ encodeFrames fields := by
      apply String.toList_injective
      rw [toList_encodeFrames_cons, String.toList_append]
    rw [hsplit, String.utf8ByteSize_append]
    rcases List.mem_cons.1 h with rfl | hmem
    · have hframe : (frame field).utf8ByteSize =
          (Nat.repr field.utf8ByteSize).utf8ByteSize + ":".utf8ByteSize + field.utf8ByteSize := by
        unfold frame
        rw [String.utf8ByteSize_append, String.utf8ByteSize_append]
      omega
    · have hrest := ih hmem
      omega

/-! ### Reading -/

/-- The first `n` bytes and the rest; nothing when `n` is past the end or inside a character. -/
def takeBytes : Nat → List Char → Option (List Char × List Char)
  | 0, cs => some ([], cs)
  | _ + 1, [] => none
  | n + 1, c :: cs =>
    if c.utf8Size ≤ n + 1 then (takeBytes (n + 1 - c.utf8Size) cs).map fun (front, rest) => (c :: front, rest)
    else none

theorem takeBytes_append (cs rest : List Char) :
    takeBytes (cs.map Char.utf8Size).sum (cs ++ rest) = some (cs, rest) := by
  induction cs with
  | nil => cases rest <;> rfl
  | cons c cs ih =>
    have hpos := c.utf8Size_pos
    obtain ⟨n, hn⟩ : ∃ n, ((c :: cs).map Char.utf8Size).sum = n + 1 := by
      refine ⟨c.utf8Size - 1 + (cs.map Char.utf8Size).sum, ?_⟩
      rw [List.map_cons, List.sum_cons]
      omega
    have hrest : n + 1 - c.utf8Size = (cs.map Char.utf8Size).sum := by
      rw [← hn, List.map_cons, List.sum_cons]
      omega
    have hle : c.utf8Size ≤ n + 1 := by
      rw [← hn, List.map_cons, List.sum_cons]
      omega
    rw [hn, List.cons_append, takeBytes, if_pos hle, hrest, ih]
    rfl

theorem takeBytes_eq_some {n : Nat} {cs front rest : List Char} (h : takeBytes n cs = some (front, rest)) :
    cs = front ++ rest ∧ (front.map Char.utf8Size).sum = n := by
  induction cs generalizing n front with
  | nil =>
    cases n with
    | zero =>
      cases h
      exact ⟨rfl, rfl⟩
    | succ n => exact nomatch h
  | cons c cs ih =>
    cases n with
    | zero =>
      cases h
      exact ⟨rfl, rfl⟩
    | succ n =>
      rw [takeBytes] at h
      split at h
      · rename_i hle
        obtain ⟨⟨tail, rest'⟩, htail, hpair⟩ := Option.map_eq_some_iff.1 h
        cases hpair
        obtain ⟨rfl, hsum⟩ := ih htail
        refine ⟨rfl, ?_⟩
        rw [List.map_cons, List.sum_cons, hsum]
        omega
      · exact nomatch h

/-- A number in its one spelling. -/
def spelled {ε α : Type} (parse : String → Option α) (spell : α → String) (unread other : ε) (raw : String) :
    Except ε α :=
  match parse raw with
  | none => .error unread
  | some n => if spell n ≠ raw then .error other else .ok n

theorem spelled_eq_ok {ε α : Type} {parse : String → Option α} {spell : α → String} {unread other : ε} {raw : String}
    {n : α} : spelled parse spell unread other raw = .ok n ↔ parse raw = some n ∧ spell n = raw := by
  unfold spelled
  cases parse raw with
  | none => exact ⟨fun h => (nomatch h), fun h => nomatch h.1⟩
  | some m =>
    by_cases hspell : spell m = raw
    · simp only [hspell, ne_eq, not_true_eq_false, if_false, Except.ok.injEq, Option.some.injEq]
      constructor
      · rintro rfl
        exact ⟨rfl, hspell⟩
      · exact fun h => h.1
    · simp only [ne_eq, hspell, not_false_eq_true, if_true, Option.some.injEq]
      constructor
      · intro h
        exact nomatch h
      · rintro ⟨rfl, h⟩
        exact absurd h hspell

/-- What a reader of frames reports. -/
structure FrameWords (ε : Type) where
  bytes : ε
  fields : ε
  framing : ε
  boundary : ε

section Reading

variable {ε : Type} (words : FrameWords ε) (number : String → Except ε Nat)

/-- At most so many fields. -/
def decodeFields : Nat → List Char → Except ε (List String)
  | _, [] => .ok []
  | 0, _ :: _ => .error words.fields
  | limit + 1, c :: cs =>
    match (c :: cs).dropWhile (· ≠ ':') with
    | [] => .error words.framing
    | _ :: body => do
      let n ← number (String.ofList ((c :: cs).takeWhile (· ≠ ':')))
      match takeBytes n body with
      | none => .error words.boundary
      | some (field, rest) => do
        let fields ← decodeFields limit rest
        .ok (String.ofList field :: fields)

/-- The fields of a text of at most so many bytes. -/
def decodeFrames (raw : String) (bytes limit : Nat) : Except ε (List String) :=
  if bytes < raw.utf8ByteSize then .error words.bytes else decodeFields words number limit raw.toList

private theorem colon_not_mem_toDigits (n : Nat) : ∀ c ∈ Nat.toDigits 10 n, (decide (c ≠ ':')) = true := by
  intro c hc
  have hdigit := Nat.isDigit_of_mem_toDigits (b := 10) (by decide) (by decide) hc
  rw [decide_eq_true_eq]
  rintro rfl
  exact absurd hdigit (by decide)

variable {words number}

theorem decodeFields_encodeFrames {fields : List String} {limit : Nat} (hlimit : fields.length ≤ limit)
    (hnumber : ∀ field ∈ fields, number (Nat.repr field.utf8ByteSize) = .ok field.utf8ByteSize) :
    decodeFields words number limit (encodeFrames fields).toList = .ok fields := by
  induction fields generalizing limit with
  | nil => cases limit <;> rfl
  | cons field fields ih =>
    obtain ⟨limit, rfl⟩ : ∃ k, limit = k + 1 := ⟨limit - 1, by simp only [List.length_cons] at hlimit; omega⟩
    have hchars : (encodeFrames (field :: fields)).toList =
        Nat.toDigits 10 field.utf8ByteSize ++ ':' :: (field.toList ++ (encodeFrames fields).toList) := by
      rw [toList_encodeFrames_cons, toList_frame, List.append_assoc, List.cons_append]
    have hdigits := colon_not_mem_toDigits field.utf8ByteSize
    have hdrop : (Nat.toDigits 10 field.utf8ByteSize ++ ':' :: (field.toList ++ (encodeFrames fields).toList)).dropWhile
        (fun c => decide (c ≠ ':')) = ':' :: (field.toList ++ (encodeFrames fields).toList) := by
      rw [List.dropWhile_append_of_pos hdigits, List.dropWhile_cons_of_neg (by decide)]
    have htake : (Nat.toDigits 10 field.utf8ByteSize ++ ':' :: (field.toList ++ (encodeFrames fields).toList)).takeWhile
        (fun c => decide (c ≠ ':')) = Nat.toDigits 10 field.utf8ByteSize := by
      rw [List.takeWhile_append_of_pos hdigits, List.takeWhile_cons_of_neg (by decide), List.append_nil]
    have hsize : (field.toList.map Char.utf8Size).sum = field.utf8ByteSize := (utf8ByteSize_eq field).symm
    have hbody : takeBytes field.utf8ByteSize (field.toList ++ (encodeFrames fields).toList) =
        some (field.toList, (encodeFrames fields).toList) := by
      rw [← hsize]
      exact takeBytes_append _ _
    have hn := hnumber field List.mem_cons_self
    have hrepr : Nat.repr field.utf8ByteSize = String.ofList (Nat.toDigits 10 field.utf8ByteSize) := by
      apply String.toList_injective
      rw [Nat.toList_repr, String.toList_ofList]
    have hrest := @ih limit (by simp only [List.length_cons] at hlimit; omega)
      fun f hf => hnumber f (List.mem_cons_of_mem _ hf)
    rw [hchars]
    generalize hall : Nat.toDigits 10 field.utf8ByteSize ++
      ':' :: (field.toList ++ (encodeFrames fields).toList) = all at hdrop htake
    cases all with
    | nil => exact nomatch hdrop
    | cons c cs =>
      rw [decodeFields, hdrop]
      simp only
      rw [htake, ← hrepr, hn, Result.ok_bind, hbody]
      simp only
      rw [hrest, Result.ok_bind, String.ofList_toList]

/-- What was written is read back. -/
theorem decodeFrames_encodeFrames {fields : List String} {bytes limit : Nat}
    (hbytes : (encodeFrames fields).utf8ByteSize ≤ bytes) (hlimit : fields.length ≤ limit)
    (hnumber : ∀ n ≤ bytes, number (Nat.repr n) = .ok n) :
    decodeFrames words number (encodeFrames fields) bytes limit = .ok fields := by
  unfold decodeFrames
  rw [if_neg (Nat.not_lt.2 hbytes)]
  refine decodeFields_encodeFrames hlimit fun field hfield => hnumber _ ?_
  exact Nat.le_trans (utf8ByteSize_le_encodeFrames hfield) hbytes

/-- What is read was written. -/
theorem encodeFrames_of_decodeFields (hnumber : ∀ s n, number s = .ok n → Nat.repr n = s) {cs : List Char} {limit : Nat}
    {fields : List String} (h : decodeFields words number limit cs = .ok fields) :
    (encodeFrames fields).toList = cs ∧ fields.length ≤ limit := by
  induction limit generalizing cs fields with
  | zero =>
    cases cs with
    | nil =>
      cases h
      exact ⟨rfl, Nat.le_refl 0⟩
    | cons c cs => exact nomatch h
  | succ limit ih =>
    cases cs with
    | nil =>
      cases h
      exact ⟨rfl, Nat.zero_le _⟩
    | cons c cs =>
      rw [decodeFields] at h
      split at h
      · exact nomatch h
      rename_i colon body hdrop
      obtain ⟨n, hn, h⟩ := Result.bind_eq_ok.1 h
      split at h
      · exact nomatch h
      rename_i field rest htake
      obtain ⟨fields', hfields, h⟩ := Result.bind_eq_ok.1 h
      cases h
      obtain ⟨hrest, hlength⟩ := ih hfields
      obtain ⟨rfl, hsize⟩ := takeBytes_eq_some htake
      -- the text up to the first colon is the spelling of the length of the field
      have hcolon : colon = ':' := by
        have hhead := List.head?_dropWhile_not (fun c => decide (c ≠ ':')) (c :: cs)
        rw [hdrop] at hhead
        simpa using hhead
      have hwhole := List.takeWhile_append_dropWhile (p := fun c => decide (c ≠ ':')) (l := c :: cs)
      have hlen : Nat.repr (String.ofList field).utf8ByteSize =
          String.ofList ((c :: cs).takeWhile fun c => decide (c ≠ ':')) := by
        rw [utf8ByteSize_ofList, hsize]
        exact hnumber _ _ hn
      refine ⟨?_, Nat.succ_le_succ hlength⟩
      rw [toList_encodeFrames_cons, toList_frame, hrest, String.toList_ofList, ← Nat.toList_repr, hlen, String.toList_ofList,
        List.append_assoc, List.cons_append]
      rw [hdrop, hcolon] at hwhole
      exact hwhole

/-- The accepted texts are the written ones within the limits. -/
theorem decodeFrames_eq_ok {raw : String} {bytes limit : Nat} {fields : List String}
    (hrepr : ∀ n ≤ bytes, number (Nat.repr n) = .ok n) (hnumber : ∀ s n, number s = .ok n → Nat.repr n = s) :
    decodeFrames words number raw bytes limit = .ok fields ↔
      encodeFrames fields = raw ∧ raw.utf8ByteSize ≤ bytes ∧ fields.length ≤ limit := by
  constructor
  · intro h
    unfold decodeFrames at h
    split at h
    · exact nomatch h
    rename_i hbytes
    obtain ⟨hchars, hlength⟩ := encodeFrames_of_decodeFields hnumber h
    exact ⟨String.toList_injective hchars, Nat.le_of_not_lt hbytes, hlength⟩
  · rintro ⟨rfl, hbytes, hlength⟩
    exact decodeFrames_encodeFrames hbytes hlength hrepr

end Reading

theorem encodeFrames_injective : Function.Injective encodeFrames := by
  -- a reader without limits tells the texts apart
  let words : FrameWords Unit := ⟨(), (), (), ()⟩
  let number : String → Except Unit Nat := fun s => (parseNat s).elim (.error ()) .ok
  have hread : ∀ fields limit, fields.length ≤ limit →
      decodeFields words number limit (encodeFrames fields).toList = .ok fields := by
    intro fields limit hlimit
    refine decodeFields_encodeFrames hlimit fun field _ => ?_
    simp [number]
  intro a b h
  have ha := hread a (max a.length b.length) (Nat.le_max_left _ _)
  have hb := hread b (max a.length b.length) (Nat.le_max_right _ _)
  rw [h, hb] at ha
  exact (Except.ok.inj ha).symm

end TextCodec
