import Verdant.Library.Lines
import Verdant.Library.Result

/-!
# Percent encoding

Bytes written as text: printable ASCII stands for itself, but for a set of reserved bytes; every other byte is `%XX`.
The reader `pctDecode` undoes it (`pctDecode_pctEncode`), and reserved characters do not occur in encoded text
(`not_mem_pctEncode`), so encoded fields can be joined with them.
-/

namespace TextCodec

/-- Bytes that are escaped although they are printable: `%`, `;` and `=`. -/
def pctReserved (b : UInt8) : Bool := b = 0x25 ∨ b = 0x3B ∨ b = 0x3D

def pctByte (b : UInt8) : List Char :=
  if 0x20 ≤ b ∧ b ≤ 0x7E ∧ ¬pctReserved b then [Char.ofNat b.toNat]
  else ['%', hexDigit (b.toNat / 16), hexDigit (b.toNat % 16)]

/-- The bytes of a text. -/
def bytesOf (s : String) : List UInt8 := s.toByteArray.data.toList

def pctEncode (raw : String) : String := String.ofList ((bytesOf raw).flatMap pctByte)

/-- Why an encoded text is refused. -/
inductive PctError where
  | truncated
  | notText
  | notHex (digits : String)
  | notUtf8
  deriving DecidableEq, Repr

/-- Two hexadecimal digits, or a `+` and one. -/
def hexPair (high low : Char) : Option Nat :=
  if high = '+' then hexDigitValue low
  else match hexDigitValue high, hexDigitValue low with
    | some x, some y => some (x * 16 + y)
    | _, _ => none

def pctPair (high low : UInt8) : Except PctError UInt8 :=
  match String.fromUTF8? ⟨#[high, low]⟩ with
  | none => .error .notText
  | some digits =>
    match digits.toList with
    | [a, b] =>
      match hexPair a b with
      | some n => .ok (UInt8.ofNat n)
      | none => .error (.notHex digits)
    | _ => .error (.notHex digits)

def pctDecodeBytes : List UInt8 → Except PctError (List UInt8)
  | [] => .ok []
  | b :: rest =>
    if b = 0x25 then
      match rest with
      | high :: low :: rest => do
        let byte ← pctPair high low
        let more ← pctDecodeBytes rest
        .ok (byte :: more)
      | _ => .error .truncated
    else do
      let more ← pctDecodeBytes rest
      .ok (b :: more)

def pctDecode (raw : String) : Except PctError String := do
  let bytes ← pctDecodeBytes (bytesOf raw)
  match String.fromUTF8? ⟨bytes.toArray⟩ with
  | some s => .ok s
  | none => .error .notUtf8

/-- A byte is encoded in three at most. -/
theorem size_pctEncode_le (raw : String) : (pctEncode raw).utf8ByteSize ≤ 3 * raw.utf8ByteSize := by
  have hbyte : ∀ b : UInt8, ((pctByte b).map Char.utf8Size).sum ≤ 3 := by
    intro b
    have hplain : ∀ n < 128, (Char.ofNat n).utf8Size = 1 := by decide
    have hdigit : ∀ n < 16, (hexDigit n).utf8Size = 1 := by decide
    have hlt := b.toNat_lt
    unfold pctByte
    split_ifs with h
    · have hascii := UInt8.le_iff_toNat_le.1 h.2.1
      have hbound : (0x7E : UInt8).toNat = 126 := by decide
      simp [hplain b.toNat (by omega)]
    · have hsign : ('%' : Char).utf8Size = 1 := by decide
      simp [hsign, hdigit (b.toNat / 16) (by omega), hdigit (b.toNat % 16) (by omega)]
  have hgo : ∀ bs : List UInt8, ((bs.flatMap pctByte).map Char.utf8Size).sum ≤ 3 * bs.length := by
    intro bs
    induction bs with
    | nil => simp
    | cons b bs ih =>
      have hb := hbyte b
      rw [List.flatMap_cons, List.map_append, List.sum_append, List.length_cons]
      omega
  unfold pctEncode
  rw [utf8ByteSize_ofList]
  exact hgo (bytesOf raw)

/-! ### Round trip -/

theorem fromUTF8_bytesOf (s : String) : String.fromUTF8? ⟨(bytesOf s).toArray⟩ = some s := by
  have hbytes : (⟨(bytesOf s).toArray⟩ : ByteArray) = s.toByteArray := by
    unfold bytesOf
    rw [Array.toArray_toList]
  rw [hbytes]
  unfold String.fromUTF8?
  rw [dif_pos s.isValidUTF8]
  rfl

/-- The bytes of a run of ASCII characters. -/
def asciiBytes (cs : List Char) : List UInt8 := cs.map fun c => UInt8.ofNat c.toNat

theorem utf8EncodeChar_ascii {c : Char} (h : c.toNat < 128) : String.utf8EncodeChar c = [UInt8.ofNat c.toNat] := by
  have hsize : c.utf8Size = 1 := by
    rw [Char.utf8Size_eq_one_iff, UInt32.le_iff_toNat_le]
    exact Nat.le_of_lt_succ h
  rw [String.utf8EncodeChar_eq_singleton hsize]
  congr 1

theorem bytesOf_ofList {cs : List Char} (h : ∀ c ∈ cs, c.toNat < 128) : bytesOf (String.ofList cs) = asciiBytes cs := by
  unfold bytesOf asciiBytes
  rw [String.toByteArray_ofList, List.utf8Encode]
  have hflat : cs.flatMap String.utf8EncodeChar = cs.map fun c => UInt8.ofNat c.toNat := by
    induction cs with
    | nil => rfl
    | cons c cs ih =>
      have hc := h c List.mem_cons_self
      have hcs : ∀ d ∈ cs, d.toNat < 128 := fun d hd => h d (List.mem_cons_of_mem _ hd)
      rw [List.flatMap_cons, utf8EncodeChar_ascii hc, ih hcs]
      rfl
  rw [hflat]
  simp

private theorem hexDigit_facts : ∀ n < 16, (hexDigit n).toNat < 128 ∧ hexDigit n ≠ '+' ∧
    hexDigitValue (hexDigit n) = some n := by
  decide

theorem pctPair_hexDigits {high low : Nat} (hhigh : high < 16) (hlow : low < 16) :
    pctPair (UInt8.ofNat (hexDigit high).toNat) (UInt8.ofNat (hexDigit low).toNat) =
      .ok (UInt8.ofNat (high * 16 + low)) := by
  obtain ⟨hhighAscii, hplus, hhighValue⟩ := hexDigit_facts high hhigh
  obtain ⟨hlowAscii, -, hlowValue⟩ := hexDigit_facts low hlow
  have hascii : ∀ c ∈ [hexDigit high, hexDigit low], c.toNat < 128 := by
    intro c hc
    rcases List.mem_pair.1 hc with rfl | rfl
    · exact hhighAscii
    · exact hlowAscii
  have hdecode := fromUTF8_bytesOf (String.ofList [hexDigit high, hexDigit low])
  rw [bytesOf_ofList hascii] at hdecode
  unfold pctPair
  change (match String.fromUTF8? ⟨(asciiBytes [hexDigit high, hexDigit low]).toArray⟩ with
    | none => Except.error PctError.notText
    | some digits => _) = _
  rw [hdecode]
  simp [hexPair, hplus, hhighValue, hlowValue]

/-- An encoded byte reads back as that byte, whatever comes after it. -/
theorem pctDecodeBytes_pctByte (b : UInt8) (rest : List UInt8) :
    pctDecodeBytes (asciiBytes (pctByte b) ++ rest) = (pctDecodeBytes rest).map (b :: ·) := by
  have hlt : b.toNat < 256 := b.toNat_lt
  unfold pctByte
  by_cases hplain : 0x20 ≤ b ∧ b ≤ 0x7E ∧ ¬pctReserved b
  · rw [if_pos hplain]
    obtain ⟨hlow, hhigh, hfree⟩ := hplain
    have hpercent : b ≠ 0x25 := by
      rintro rfl
      exact hfree (by decide)
    have hle : b.toNat ≤ 126 := UInt8.le_iff_toNat_le.1 hhigh
    have hchar := toNat_ofNat_ascii (n := b.toNat) (by omega)
    simp only [asciiBytes, List.map_cons, List.map_nil, List.singleton_append, hchar, UInt8.ofNat_toNat]
    rw [pctDecodeBytes.eq_def]
    simp only [if_neg hpercent]
    cases pctDecodeBytes rest with
    | error e => rfl
    | ok more => rfl
  · rw [if_neg hplain]
    have hhigh : b.toNat / 16 < 16 := by omega
    have hlow : b.toNat % 16 < 16 := by omega
    have hvalue : b.toNat / 16 * 16 + b.toNat % 16 = b.toNat := by omega
    have hpair := pctPair_hexDigits hhigh hlow
    rw [hvalue, UInt8.ofNat_toNat] at hpair
    have hpercent : UInt8.ofNat '%'.toNat = 0x25 := by decide
    simp only [asciiBytes, List.map_cons, List.map_nil, List.cons_append, List.nil_append]
    rw [hpercent, pctDecodeBytes, if_pos rfl, hpair]
    cases pctDecodeBytes rest with
    | error e => rfl
    | ok more => rfl

theorem ascii_pctByte (b : UInt8) : ∀ c ∈ pctByte b, c.toNat < 128 := by
  intro c hc
  have hlt : b.toNat < 256 := b.toNat_lt
  unfold pctByte at hc
  split at hc
  · rename_i hplain
    rw [List.mem_singleton.1 hc]
    have hle : b.toNat ≤ 126 := UInt8.le_iff_toNat_le.1 hplain.2.1
    rw [toNat_ofNat_ascii (n := b.toNat) (by omega)]
    omega
  · simp only [List.mem_cons, List.not_mem_nil, or_false] at hc
    rcases hc with rfl | rfl | rfl
    · decide
    · exact (hexDigit_facts _ (by omega)).1
    · exact (hexDigit_facts _ (by omega)).1

theorem pctDecodeBytes_flatMap (bytes : List UInt8) :
    pctDecodeBytes (asciiBytes (bytes.flatMap pctByte)) = .ok bytes := by
  induction bytes with
  | nil => rfl
  | cons b bytes ih =>
    have happend : asciiBytes (pctByte b ++ bytes.flatMap pctByte) =
        asciiBytes (pctByte b) ++ asciiBytes (bytes.flatMap pctByte) := List.map_append
    rw [List.flatMap_cons, happend, pctDecodeBytes_pctByte, ih]
    rfl

@[simp]
theorem pctDecode_pctEncode (raw : String) : pctDecode (pctEncode raw) = .ok raw := by
  have hascii : ∀ c ∈ (bytesOf raw).flatMap pctByte, c.toNat < 128 := by
    intro c hc
    obtain ⟨b, -, hc⟩ := List.mem_flatMap.1 hc
    exact ascii_pctByte b c hc
  unfold pctDecode pctEncode
  rw [bytesOf_ofList hascii, pctDecodeBytes_flatMap]
  simp only [bind, Except.bind, fromUTF8_bytesOf]

/-! ### Texts that were not encoded -/

theorem percent_mem_bytesOf {s : String} : (0x25 : UInt8) ∈ bytesOf s ↔ '%' ∈ s.toList :=
  mem_utf8Bytes (b := 0x25) (by decide)

/-- Decoding never lengthens a text, and shortens one with an escape. -/
theorem length_pctDecodeBytes {bytes out : List UInt8} (h : pctDecodeBytes bytes = .ok out) :
    out.length ≤ bytes.length ∧ ((0x25 : UInt8) ∈ bytes → out.length < bytes.length) := by
  induction bytes using pctDecodeBytes.induct generalizing out with
  | case1 =>
    cases h
    exact ⟨Nat.le_refl _, fun hmem => nomatch hmem⟩
  | case2 high low rest ih =>
    rw [pctDecodeBytes, if_pos rfl] at h
    obtain ⟨byte, -, h⟩ := Result.bind_eq_ok.1 h
    obtain ⟨more, hmore, h⟩ := Result.bind_eq_ok.1 h
    cases h
    have hle := (ih hmore).1
    simp only [List.length_cons]
    exact ⟨by omega, fun _ => by omega⟩
  | case3 rest hshort =>
    rw [pctDecodeBytes.eq_def] at h
    simp only [if_true] at h
    exact nomatch h
  | case4 b rest hb ih =>
    rw [pctDecodeBytes.eq_def] at h
    simp only [if_neg hb] at h
    obtain ⟨more, hmore, h⟩ := Result.bind_eq_ok.1 h
    cases h
    obtain ⟨hle, hlt⟩ := ih hmore
    simp only [List.length_cons]
    refine ⟨by omega, fun hmem => ?_⟩
    have hrest := hlt ((List.mem_cons.1 hmem).resolve_left fun heq => hb heq.symm)
    omega

theorem length_bytesOf (s : String) : (bytesOf s).length = s.utf8ByteSize := by
  unfold bytesOf
  rw [Array.length_toList]
  rfl

theorem size_of_pctDecode {raw s : String} (h : pctDecode raw = .ok s) :
    s.utf8ByteSize ≤ raw.utf8ByteSize ∧ ('%' ∈ raw.toList → s.utf8ByteSize < raw.utf8ByteSize) := by
  unfold pctDecode at h
  obtain ⟨bytes, hbytes, h⟩ := Result.bind_eq_ok.1 h
  split at h
  · rename_i text htext
    cases h
    obtain ⟨hle, hlt⟩ := length_pctDecodeBytes hbytes
    have hread : bytesOf s = bytes := by
      unfold String.fromUTF8? at htext
      split at htext
      · cases htext
        simp [bytesOf, String.fromUTF8]
      · exact nomatch htext
    rw [← length_bytesOf, ← length_bytesOf, hread]
    exact ⟨hle, fun hmem => hlt (percent_mem_bytesOf.2 hmem)⟩
  · exact nomatch h

/-- A text without an escape decodes to itself. -/
theorem pctDecode_of_not_mem {s : String} (h : '%' ∉ s.toList) : pctDecode s = .ok s := by
  have hgo : ∀ bytes : List UInt8, (0x25 : UInt8) ∉ bytes → pctDecodeBytes bytes = .ok bytes := by
    intro bytes
    induction bytes with
    | nil => exact fun _ => rfl
    | cons b rest ih =>
      intro hmem
      rw [List.mem_cons, not_or] at hmem
      rw [pctDecodeBytes.eq_def]
      simp only [if_neg (Ne.symm hmem.1)]
      rw [ih hmem.2]
      rfl
  unfold pctDecode
  rw [hgo _ fun hmem => h (percent_mem_bytesOf.1 hmem), Result.ok_bind, fromUTF8_bytesOf]

/-! ### What encoded text is made of -/

/-- The characters of an encoded byte: `%`, a digit, or a printable character that is not reserved. -/
theorem mem_pctByte {b : UInt8} {c : Char} (h : c ∈ pctByte b) :
    c = '%' ∨ (∃ n < 16, c = hexDigit n) ∨ (' '.toNat ≤ c.toNat ∧ c.toNat ≤ '~'.toNat ∧ c ≠ '%' ∧ c ≠ ';' ∧ c ≠ '=') := by
  have hlt : b.toNat < 256 := b.toNat_lt
  unfold pctByte at h
  split at h
  · rename_i hplain
    obtain ⟨hlow, hhigh, hfree⟩ := hplain
    obtain rfl := List.mem_singleton.1 h
    have hge : 32 ≤ b.toNat := UInt8.le_iff_toNat_le.1 hlow
    have hle : b.toNat ≤ 126 := UInt8.le_iff_toNat_le.1 hhigh
    have hchar := toNat_ofNat_ascii (n := b.toNat) (by omega)
    have hne : ∀ c : Char, pctReserved (UInt8.ofNat c.toNat) = true → Char.ofNat b.toNat ≠ c := by
      rintro c hc rfl
      rw [hchar, UInt8.ofNat_toNat] at hc
      exact hfree hc
    refine .inr (.inr ⟨?_, ?_, hne '%' (by decide), hne ';' (by decide), hne '=' (by decide)⟩)
    · rw [hchar]
      exact hge
    · rw [hchar]
      exact hle
  · simp only [List.mem_cons, List.not_mem_nil, or_false] at h
    rcases h with rfl | rfl | rfl
    · exact .inl rfl
    · exact .inr (.inl ⟨_, by omega, rfl⟩)
    · exact .inr (.inl ⟨_, by omega, rfl⟩)

/-- A reserved character, `%` apart, or one that is not printable ASCII does not occur in encoded text. -/
theorem not_mem_pctEncode (raw : String) {c : Char} (hpercent : c ≠ '%') (hdigit : ∀ n < 16, hexDigit n ≠ c)
    (hc : c = ';' ∨ c = '=' ∨ c.toNat < ' '.toNat ∨ '~'.toNat < c.toNat) : c ∉ (pctEncode raw).toList := by
  intro hmem
  unfold pctEncode at hmem
  rw [String.toList_ofList] at hmem
  obtain ⟨b, -, hb⟩ := List.mem_flatMap.1 hmem
  rcases mem_pctByte hb with h | ⟨n, hn, h⟩ | ⟨hge, hle, -, hsemi, heq⟩
  · exact hpercent h
  · exact hdigit n hn h.symm
  · rcases hc with h | h | h | h
    · exact hsemi h
    · exact heq h
    · omega
    · omega

theorem semicolon_not_mem_pctEncode (raw : String) : ';' ∉ (pctEncode raw).toList :=
  not_mem_pctEncode raw (by decide) (by decide) (.inl rfl)

/-- Characters that stand for themselves. -/
def PlainChar (c : Char) : Prop := 0x20 ≤ c.toNat ∧ c.toNat ≤ 0x7E ∧ c ≠ '%' ∧ c ≠ ';' ∧ c ≠ '='

instance (c : Char) : Decidable (PlainChar c) := by
  unfold PlainChar
  infer_instance

private theorem pctByte_plain : ∀ n < 127, 0x20 ≤ n ∧ n ≠ 0x25 ∧ n ≠ 0x3B ∧ n ≠ 0x3D →
    pctByte (UInt8.ofNat n) = [Char.ofNat n] := by
  decide

/-- Plain text encodes to itself. -/
theorem pctEncode_of_plain {s : String} (h : ∀ c ∈ s.toList, PlainChar c) : pctEncode s = s := by
  have hbytes : bytesOf s = asciiBytes s.toList := by
    have hascii : ∀ c ∈ s.toList, c.toNat < 128 := by
      intro c hc
      have := (h c hc).2.1
      omega
    have := bytesOf_ofList hascii
    rwa [String.ofList_toList] at this
  have hchar : ∀ c, PlainChar c → pctByte (UInt8.ofNat c.toNat) = [c] := by
    intro c hc
    obtain ⟨hlow, hhigh, hpercent, hsemi, heq⟩ := hc
    have hne : ∀ d : Char, c ≠ d → c.toNat ≠ d.toNat := fun d hd hn => hd (Char.toNat_inj.1 hn)
    rw [pctByte_plain c.toNat (by omega) ⟨hlow, hne '%' hpercent, hne ';' hsemi, hne '=' heq⟩, Char.ofNat_toNat]
  unfold pctEncode
  rw [hbytes, asciiBytes, List.flatMap_map]
  apply String.toList_injective
  rw [String.toList_ofList]
  revert h
  induction s.toList with
  | nil => exact fun _ => rfl
  | cons c cs ih =>
    intro h
    rw [List.flatMap_cons, hchar c (h c List.mem_cons_self), ih fun d hd => h d (List.mem_cons_of_mem _ hd)]
    rfl

theorem plainChar_digit {c : Char} (hdigit : c.isDigit = true) : PlainChar c := by
  rw [Char.isDigit, Bool.and_eq_true, decide_eq_true_eq, decide_eq_true_eq] at hdigit
  have hlow : 48 ≤ c.toNat := hdigit.1
  have hhigh : c.toNat ≤ 57 := hdigit.2
  refine ⟨by omega, by omega, ?_, ?_, ?_⟩
  · rintro rfl
    exact absurd hlow (by decide)
  · rintro rfl
    exact absurd hhigh (by decide)
  · rintro rfl
    exact absurd hhigh (by decide)

theorem pctEncode_repr (n : Nat) : pctEncode (Nat.repr n) = Nat.repr n := by
  refine pctEncode_of_plain fun c hc => ?_
  rw [Nat.toList_repr] at hc
  exact plainChar_digit (Nat.isDigit_of_mem_toDigits (by decide) (by decide) hc)

theorem pctEncode_toString (i : Int) : pctEncode (toString i) = toString i := by
  cases i with
  | ofNat n => exact pctEncode_repr n
  | negSucc n =>
    have htext : toString (Int.negSucc n) = "-" ++ Nat.repr (n + 1) := rfl
    rw [htext]
    refine pctEncode_of_plain fun c hc => ?_
    rw [String.toList_append, List.mem_append] at hc
    rcases hc with hc | hc
    · obtain rfl : c = '-' := by simpa using hc
      decide
    · rw [Nat.toList_repr] at hc
      exact plainChar_digit (Nat.isDigit_of_mem_toDigits (by decide) (by decide) hc)

end TextCodec
