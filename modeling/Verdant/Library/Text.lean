import Mathlib

/-!
# Text encodings

Decimal numbers, hexadecimal bytes and separator-joined fields, each with the reader that undoes it:
`parseNat_repr`, `bytesOfHex_hexOfBytes` and `splitText_joinText`.  The readers are the strict ones of a systems
language: a number is a nonempty run of digits, a byte is exactly two digits, and splitting the empty text
gives one empty field.
-/

namespace TextCodec

/-! ### Decimal numbers -/

/-- Reads a nonempty run of decimal digits. -/
def parseDigits (cs : List Char) : Option Nat :=
  if cs ≠ [] ∧ cs.all Char.isDigit then some (Nat.ofDigitChars 10 cs 0) else none

/-- Reads an unsigned decimal number; one leading `+` is allowed. -/
def parseNat (s : String) : Option Nat :=
  match s.toList with
  | '+' :: cs => parseDigits cs
  | cs => parseDigits cs

/-- Reads a signed decimal number; one leading sign is allowed. -/
def parseInt (s : String) : Option Int :=
  match s.toList with
  | '+' :: cs => (parseDigits cs).map (fun n => (n : Int))
  | '-' :: cs => (parseDigits cs).map (fun n => -(n : Int))
  | cs => (parseDigits cs).map (fun n => (n : Int))

theorem parseDigits_toDigits (n : Nat) : parseDigits (Nat.toDigits 10 n) = some n := by
  have hdigits : (Nat.toDigits 10 n).all Char.isDigit = true := by
    rw [List.all_eq_true]
    intro c hc
    exact Nat.isDigit_of_mem_toDigits (by decide) (by decide) hc
  simp [parseDigits, Nat.toDigits_ne_nil, hdigits, Nat.ofDigitChars_ten_toDigits]

/-- The digits of a number start with no sign. -/
private theorem head_toDigits {n : Nat} {c : Char} {cs : List Char} (h : Nat.toDigits 10 n = c :: cs) :
    c ≠ '+' ∧ c ≠ '-' := by
  have hc : c.isDigit = true :=
    Nat.isDigit_of_mem_toDigits (b := 10) (n := n) (by decide) (by decide) (by rw [h]; simp)
  constructor <;> rintro rfl <;> simp [Char.isDigit] at hc

theorem minus_not_mem_toDigits (n : Nat) : '-' ∉ Nat.toDigits 10 n := by
  intro hc
  have := Nat.isDigit_of_mem_toDigits (b := 10) (n := n) (by decide) (by decide) hc
  simp [Char.isDigit] at this

@[simp]
theorem parseNat_repr (n : Nat) : parseNat (Nat.repr n) = some n := by
  unfold parseNat
  rw [Nat.toList_repr]
  split
  · rename_i cs h
    exact absurd rfl (head_toDigits h).1
  · exact parseDigits_toDigits n

theorem repr_injective : Function.Injective Nat.repr := by
  intro a b h
  have := parseNat_repr a
  rw [h, parseNat_repr] at this
  exact (Option.some.inj this).symm

@[simp]
theorem parseInt_repr (n : Nat) : parseInt (Nat.repr n) = some (n : Int) := by
  unfold parseInt
  rw [Nat.toList_repr]
  split
  · rename_i cs h
    exact absurd rfl (head_toDigits h).1
  · rename_i cs h
    exact absurd rfl (head_toDigits h).2
  · simp [parseDigits_toDigits]

@[simp]
theorem parseInt_toString (i : Int) : parseInt (toString i) = some i := by
  cases i with
  | ofNat n => exact parseInt_repr n
  | negSucc n =>
    have htext : toString (Int.negSucc n) = "-" ++ Nat.repr (n + 1) := rfl
    rw [htext]
    unfold parseInt
    rw [String.toList_append, Nat.toList_repr]
    simp [parseDigits_toDigits, Int.negSucc_eq]

/-- What a check of every member says. -/
theorem forall_mem_of_all {α : Type} {p : α → Prop} [DecidablePred p] {l : List α}
    (h : (l.all fun a => decide (p a)) = true) : ∀ a ∈ l, p a :=
  fun a ha => of_decide_eq_true (List.all_eq_true.1 h a ha)

/-! ### Hexadecimal bytes -/

theorem toNat_ofNat_ascii {n : Nat} (h : n < 128) : (Char.ofNat n).toNat = n := by
  have hvalid : n.isValidChar := .inl (by omega)
  unfold Char.ofNat
  rw [dif_pos hvalid]
  rfl

/-- The upper-case digit of a number below 16. -/
def hexDigit (n : Nat) : Char :=
  if n < 10 then Char.ofNat (48 + n) else Char.ofNat (55 + n)

/-- The value of a hexadecimal digit of either case. -/
def hexDigitValue (c : Char) : Option Nat :=
  if '0' ≤ c ∧ c ≤ '9' then some (c.toNat - 48)
  else if 'A' ≤ c ∧ c ≤ 'F' then some (c.toNat - 55)
  else if 'a' ≤ c ∧ c ≤ 'f' then some (c.toNat - 87)
  else none

def hexOfBytes (bytes : List UInt8) : List Char :=
  bytes.flatMap fun b => [hexDigit (b.toNat / 16), hexDigit (b.toNat % 16)]

/-- Reads the digits two at a time; an odd digit at the end is refused. -/
def bytesOfHex : List Char → Option (List UInt8)
  | [] => some []
  | [_] => none
  | a :: b :: rest =>
    match hexDigitValue a, hexDigitValue b, bytesOfHex rest with
    | some x, some y, some bytes => some (UInt8.ofNat (x * 16 + y) :: bytes)
    | _, _, _ => none

private theorem hexDigitValue_hexDigit : ∀ n < 16, hexDigitValue (hexDigit n) = some n := by
  decide

theorem bytesOfHex_hexOfBytes (bytes : List UInt8) : bytesOfHex (hexOfBytes bytes) = some bytes := by
  induction bytes with
  | nil => rfl
  | cons b bytes ih =>
    have hlt : b.toNat < 256 := b.toNat_lt
    have hhigh := hexDigitValue_hexDigit (b.toNat / 16) (by omega)
    have hlow := hexDigitValue_hexDigit (b.toNat % 16) (by omega)
    have hb : b.toNat / 16 * 16 + b.toNat % 16 = b.toNat := by omega
    simp only [hexOfBytes, List.flatMap_cons, List.cons_append, List.nil_append] at ih ⊢
    simp only [bytesOfHex, hhigh, hlow, ih, hb]
    simp

/-- The hexadecimal text of the bytes of a string. -/
def hexText (s : String) : String := String.ofList (hexOfBytes s.toByteArray.data.toList)

theorem hexOfBytes_ne_nil {bytes : List UInt8} (h : bytes ≠ []) : hexOfBytes bytes ≠ [] := by
  cases bytes with
  | nil => exact absurd rfl h
  | cons b bytes => simp [hexOfBytes]

theorem mem_hexOfBytes {bytes : List UInt8} {c : Char} (h : c ∈ hexOfBytes bytes) :
    ∃ n < 16, c = hexDigit n := by
  simp only [hexOfBytes, List.mem_flatMap, List.mem_cons, List.not_mem_nil, or_false] at h
  obtain ⟨b, -, hc⟩ := h
  have hlt : b.toNat < 256 := b.toNat_lt
  rcases hc with rfl | rfl
  · exact ⟨b.toNat / 16, by omega, rfl⟩
  · exact ⟨b.toNat % 16, by omega, rfl⟩

/-- No separator below the digits occurs in hexadecimal text. -/
theorem not_mem_hexText {s : String} {c : Char} (hc : ∀ n < 16, hexDigit n ≠ c) : c ∉ (hexText s).toList := by
  intro hmem
  rw [hexText, String.toList_ofList] at hmem
  obtain ⟨n, hn, rfl⟩ := mem_hexOfBytes hmem
  exact hc n hn rfl

/-! ### Digests -/

/-- FNV-1a over 64 bits. -/
def fnv1a (bytes : List UInt8) : UInt64 :=
  bytes.foldl (fun hash b => (hash ^^^ b.toUInt64) * 0x100000001b3) 0xcbf29ce484222325

/-- The sixteen lower-case hexadecimal digits of a 64-bit number. -/
def hex16 (n : UInt64) : String :=
  String.ofList ((List.range 16).map fun i => Nat.digitChar (n.toNat / 16 ^ (15 - i) % 16))

theorem length_hex16 (n : UInt64) : (hex16 n).toList.length = 16 := by
  simp [hex16]

theorem utf8ByteSize_ofList (cs : List Char) : (String.ofList cs).utf8ByteSize = (cs.map Char.utf8Size).sum := by
  induction cs with
  | nil => rfl
  | cons c cs ih =>
    have hsplit : String.ofList (c :: cs) = String.singleton c ++ String.ofList cs := by
      apply String.toList_injective
      simp
    rw [hsplit, String.utf8ByteSize_append, ih, String.utf8ByteSize_singleton]
    simp

theorem utf8ByteSize_eq (s : String) : s.utf8ByteSize = (s.toList.map Char.utf8Size).sum := by
  rw [← utf8ByteSize_ofList, String.ofList_toList]

theorem utf8ByteSize_repr_le {n k : Nat} (hk : 0 < k) (h : n < 10 ^ k) : (Nat.repr n).utf8ByteSize ≤ k := by
  have hdigit : ∀ c : Char, c.isDigit = true → c.utf8Size = 1 := by
    intro c hc
    rw [Char.isDigit, Bool.and_eq_true, decide_eq_true_eq, decide_eq_true_eq] at hc
    rw [Char.utf8Size_eq_one_iff, UInt32.le_iff_toNat_le]
    have hhigh : c.val.toNat ≤ 57 := hc.2
    have hbound : (127 : UInt32).toNat = 127 := rfl
    omega
  have hsum : ∀ cs : List Char, (∀ c ∈ cs, c.isDigit = true) → (cs.map Char.utf8Size).sum = cs.length := by
    intro cs
    induction cs with
    | nil => simp
    | cons c cs ih =>
      intro hall
      have hhead := hdigit c (hall c List.mem_cons_self)
      have htail := ih fun d hd => hall d (List.mem_cons_of_mem _ hd)
      rw [List.map_cons, List.sum_cons, hhead, htail, List.length_cons]
      omega
  have hlen := (Nat.length_toDigits_le_iff (b := 10) (by decide) hk).2 h
  rw [utf8ByteSize_eq, Nat.toList_repr, hsum]
  · exact hlen
  · exact fun c hc => Nat.isDigit_of_mem_toDigits (by decide) (by decide) hc

theorem utf8ByteSize_hex16 (n : UInt64) : (hex16 n).utf8ByteSize = 16 := by
  have hdigit : ∀ d < 16, (Nat.digitChar d).utf8Size = 1 := by decide
  have hsum : ∀ is : List Nat, ((is.map fun i => Nat.digitChar (n.toNat / 16 ^ (15 - i) % 16)).map Char.utf8Size).sum =
      is.length := by
    intro is
    induction is with
    | nil => rfl
    | cons i is ih =>
      simp only [List.map_cons, List.sum_cons, List.length_cons] at ih ⊢
      rw [ih, hdigit _ (Nat.mod_lt _ (by decide))]
      omega
  unfold hex16
  rw [utf8ByteSize_ofList, hsum, List.length_range]

/-- The digest of the bytes of a text. -/
def fnv1aHex (s : String) : String := hex16 (fnv1a s.toByteArray.data.toList)

/-! ### Separated fields -/

/-- Joins fields with a separator between them. -/
def joinText (sep : Char) (fields : List String) : String :=
  String.ofList ([sep].intercalate (fields.map String.toList))

theorem utf8ByteSize_joinText_le (sep : Char) (fields : List String) :
    (joinText sep fields).utf8ByteSize ≤ (fields.map fun f => f.utf8ByteSize + sep.utf8Size).sum := by
  have hgo : ∀ ls : List (List Char), (([sep].intercalate ls).map Char.utf8Size).sum ≤
      (ls.map fun l => (l.map Char.utf8Size).sum + sep.utf8Size).sum := by
    intro ls
    induction ls with
    | nil => simp
    | cons l ls ih =>
      cases ls with
      | nil => simp
      | cons l' ls =>
        rw [List.intercalate_cons_cons]
        simp only [List.map_append, List.sum_append, List.map_cons, List.map_nil, List.sum_cons, List.sum_nil] at ih ⊢
        omega
  unfold joinText
  rw [utf8ByteSize_ofList]
  refine Nat.le_trans (hgo _) (Nat.le_of_eq ?_)
  simp [Function.comp_def, ← utf8ByteSize_eq]

/-- Splits a text at every separator; the empty text is one empty field. -/
def splitText (sep : Char) (s : String) : List String :=
  (s.toList.splitOn sep).map String.ofList

theorem splitText_joinText {sep : Char} {fields : List String} (h : ∀ f ∈ fields, sep ∉ f.toList)
    (hne : fields ≠ []) : splitText sep (joinText sep fields) = fields := by
  unfold splitText joinText
  rw [String.toList_ofList, List.splitOn_intercalate]
  · simp [Function.comp_def]
  · intro l hl
    obtain ⟨f, hf, rfl⟩ := List.mem_map.1 hl
    exact h f hf
  · simpa using hne

/-- Splitting a joined text splits each of its fields. -/
theorem splitText_joinText_flatMap {sep : Char} {fields : List String} (hne : fields ≠ []) :
    splitText sep (joinText sep fields) = fields.flatMap (splitText sep) := by
  have hgo : ∀ l (ls : List (List Char)), ([sep].intercalate (l :: ls)).splitOn sep =
      (l :: ls).flatMap fun l => l.splitOn sep := by
    intro l ls
    induction ls generalizing l with
    | nil => simp
    | cons l' ls ih =>
      rw [List.intercalate_cons_cons, List.append_assoc, List.singleton_append, List.splitOn_append_cons_self, ih]
      simp only [List.flatMap_cons]
  cases fields with
  | nil => exact absurd rfl hne
  | cons f fields =>
    unfold splitText joinText
    rw [String.toList_ofList, List.map_cons, hgo, List.map_flatMap, ← List.map_cons, List.flatMap_map]

theorem splitText_of_not_mem {sep : Char} {s : String} (h : sep ∉ s.toList) : splitText sep s = [s] := by
  unfold splitText
  rw [List.splitOn_eq_singleton h, List.map_singleton, String.ofList_toList]

/-- A field without the separator is one of the fields read back, whatever the other fields are. -/
theorem mem_splitText_joinText {sep : Char} {fields : List String} {f : String} (hf : f ∈ fields)
    (h : sep ∉ f.toList) : f ∈ splitText sep (joinText sep fields) := by
  rw [splitText_joinText_flatMap (List.ne_nil_of_mem hf)]
  refine List.mem_flatMap_of_mem hf ?_
  rw [splitText_of_not_mem h]
  exact List.mem_singleton_self f

/-- A character that is neither the separator nor in a field is not in the joined text. -/
theorem not_mem_joinText {sep c : Char} {fields : List String} (hsep : c ≠ sep)
    (h : ∀ f ∈ fields, c ∉ f.toList) : c ∉ (joinText sep fields).toList := by
  unfold joinText
  rw [String.toList_ofList]
  induction fields with
  | nil => simp
  | cons f fields ih =>
    have hf := h f List.mem_cons_self
    have hrest := ih fun g hg => h g (List.mem_cons_of_mem _ hg)
    cases fields with
    | nil => simpa using hf
    | cons g fields =>
      rw [List.map_cons, List.map_cons, List.intercalate_cons_cons]
      simp only [List.mem_append, List.mem_singleton, not_or]
      exact ⟨⟨hf, hsep⟩, hrest⟩

/-! ### Search -/

/-- Whether a text contains another. -/
def containsText (s part : String) : Bool := decide (part.toList <:+: s.toList)

theorem containsText_append_right (s part : String) : containsText (s ++ part) part = true := by
  simp only [containsText, String.toList_append, decide_eq_true_eq]
  exact (List.suffix_append s.toList part.toList).isInfix

/-- Two texts that end before their first separator are told apart by it. -/
theorem append_cons_inj {α : Type*} {sep : α} {a b x y : List α} (ha : sep ∉ a) (hb : sep ∉ b)
    (h : a ++ sep :: x = b ++ sep :: y) : a = b ∧ x = y := by
  induction a generalizing b with
  | nil =>
    cases b with
    | nil => exact ⟨rfl, (List.cons.inj h).2⟩
    | cons d b => exact absurd ((List.cons.inj h).1 ▸ List.mem_cons_self) hb
  | cons c a ih =>
    cases b with
    | nil => exact absurd ((List.cons.inj h).1 ▸ List.mem_cons_self) ha
    | cons d b =>
      obtain ⟨rfl, hrest⟩ := List.cons.inj h
      obtain ⟨rfl, rfl⟩ := ih (fun hc => ha (List.mem_cons_of_mem _ hc)) (fun hc => hb (List.mem_cons_of_mem _ hc)) hrest
      exact ⟨rfl, rfl⟩

end TextCodec
