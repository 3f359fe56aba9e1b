import Verdant.Modbus.Map

/-!
# Register maps are exact

The integer of a payload by its bytes alone: each word in the byte order, the words in the word order, all bytes one number,
signed or not.  A map reads this integer, scales it without overflow and spells it with its places
(`decode_exact`).
-/

namespace Verdant

open TextCodec

/-! ### What a lexical form spells -/

/-- The sign, the whole part and the places of a lexical form. -/
def lexicalParts (text : List Char) : Bool × List Char × List Char :=
  let negative := text.head? = some '-'
  let body := if negative then text.tail else text
  (negative, (body.span (· ≠ '.')).1, (body.span (· ≠ '.')).2.tail)

def Decimal.negative (d : Decimal) : Bool := (lexicalParts d.text.toList).1

def Decimal.places (d : Decimal) : Nat := (lexicalParts d.text.toList).2.2.length

def Decimal.rational (d : Decimal) : ℚ :=
  let (negative, whole, places) := lexicalParts d.text.toList
  (if negative then -1 else 1) * (Nat.ofDigitChars 10 (whole ++ places) 0 : ℚ) / 10 ^ places.length

/-- The number a value is, if it is one. -/
def Value.rational : Value → Option ℚ
  | .integer n => some n
  | .decimal d => some d.rational
  | _ => none

section Spelled

variable {negative : Bool} {whole places : List Char}

theorem span_spelled (hwhole : ∀ c ∈ whole, c.isDigit = true) :
    (whole ++ '.' :: places).span (· ≠ '.') = (whole, '.' :: places) := by
  have hne : ∀ c ∈ whole, decide (c ≠ '.') = true := by
    intro c hc
    rw [decide_eq_true_eq]
    rintro rfl
    exact absurd (hwhole '.' hc) (by decide)
  rw [List.span_eq_takeWhile_dropWhile, List.takeWhile_append_of_pos hne, List.dropWhile_append_of_pos hne,
    List.takeWhile_cons_of_neg (by decide), List.dropWhile_cons_of_neg (by decide), List.append_nil]

/-- A run of digits begins with no sign. -/
theorem head?_digits_ne_minus (hempty : whole ≠ []) (hwhole : ∀ c ∈ whole, c.isDigit = true) (rest : List Char) :
    (whole ++ rest).head? ≠ some '-' := by
  obtain ⟨c, cs, rfl⟩ := List.exists_cons_of_ne_nil hempty
  intro hhead
  obtain rfl := Option.some.inj hhead
  exact absurd (hwhole '-' List.mem_cons_self) (by decide)

theorem lexicalParts_spelled (hempty : whole ≠ []) (hwhole : ∀ c ∈ whole, c.isDigit = true) :
    lexicalParts ((if negative then ['-'] else []) ++ (whole ++ '.' :: places)) = (negative, whole, places) := by
  cases negative with
  | true =>
    show (true, (List.span (· ≠ '.') (whole ++ '.' :: places)).1, (List.span (· ≠ '.') (whole ++ '.' :: places)).2.tail) = _
    rw [span_spelled hwhole]
    rfl
  | false =>
    have hhead := head?_digits_ne_minus hempty hwhole ('.' :: places)
    unfold lexicalParts
    simp only [Bool.false_eq_true, if_false, List.nil_append, hhead, decide_false]
    rw [span_spelled hwhole]
    rfl

theorem isDecimalLexical_spelled {text : String} (hempty : whole ≠ []) (hwhole : ∀ c ∈ whole, c.isDigit = true)
    (hlead : ¬ (1 < whole.length ∧ whole.head? = some '0')) (hplaces : places ≠ [])
    (hdigits : ∀ c ∈ places, c.isDigit = true)
    (htext : text.toList = (if negative then ['-'] else []) ++ (whole ++ '.' :: places)) :
    isDecimalLexical text = true := by
  have hbody : ∀ body, body = whole ++ '.' :: places → (body.span (· ≠ '.')).1 = whole ∧
      (body.span (· ≠ '.')).2 = '.' :: places := by
    rintro body rfl
    rw [span_spelled hwhole]
    exact ⟨rfl, rfl⟩
  have hall : whole.all Char.isDigit = true := List.all_eq_true.2 hwhole
  have hall' : places.all Char.isDigit = true := List.all_eq_true.2 hdigits
  have hlead' : (decide (whole.length > 1) && whole.head? == some '0') = false := by
    rw [Bool.eq_false_iff]
    intro htrue
    rw [Bool.and_eq_true, decide_eq_true_eq, beq_iff_eq] at htrue
    exact hlead htrue
  unfold isDecimalLexical
  rw [htext]
  -- without a sign the whole part itself begins the text
  split
  · rename_i cs hcs
    have hsame : cs = whole ++ '.' :: places := by
      cases negative with
      | true => exact (List.cons.inj hcs).2.symm
      | false =>
        have hhead : (whole ++ '.' :: places).head? = some '-' := congrArg List.head? hcs
        exact absurd hhead (head?_digits_ne_minus hempty hwhole _)
    obtain ⟨hint, hfrac⟩ := hbody _ hsame
    simp only [hint, hfrac, hall, hall', hlead']
    rw [decide_eq_true hempty, decide_eq_true hplaces]
    rfl
  · rename_i cs hcs
    have hsame : (if negative then ['-'] else []) ++ (whole ++ '.' :: places) = whole ++ '.' :: places := by
      cases negative with
      | true => exact absurd rfl (hcs _)
      | false => rfl
    obtain ⟨hint, hfrac⟩ := hbody _ hsame
    simp only [hint, hfrac, hall, hall', hlead']
    rw [decide_eq_true hempty, decide_eq_true hplaces]
    rfl

end Spelled

/-- A signed number of so many places, as text. -/
def fixedPoint (places : Nat) (n : Int) : String :=
  (if n < 0 then "-" else "") ++ Nat.repr (n.natAbs / 10 ^ places) ++ "." ++
    String.ofList (zeroPadded places (n.natAbs % 10 ^ places))

theorem toList_fixedPoint (places : Nat) (n : Int) :
    (fixedPoint places n).toList = (if decide (n < 0) then ['-'] else []) ++
      (Nat.toDigits 10 (n.natAbs / 10 ^ places) ++ '.' :: zeroPadded places (n.natAbs % 10 ^ places)) := by
  unfold fixedPoint
  rw [String.toList_append, String.toList_append, String.toList_append, Nat.toList_repr, String.toList_ofList]
  by_cases hn : n < 0
  · simp [hn]
  · simp [hn]

/-- The text is a decimal, and it spells the number. -/
theorem parse_fixedPoint {places : Nat} {n : Int} (hplaces : 0 < places) (hfew : places ≤ 9) (hn : n.natAbs < 10 ^ 20) :
    ∃ d, Decimal.parse (fixedPoint places n) = .ok d ∧ d.places = places ∧ (d.negative = true ↔ n < 0) ∧
      d.rational = n / 10 ^ places := by
  have htext := toList_fixedPoint places n
  have hrest : n.natAbs % 10 ^ places < 10 ^ places := Nat.mod_lt _ (by positivity)
  have hlength := length_zeroPadded hplaces hrest
  have hwhole : ∀ c ∈ Nat.toDigits 10 (n.natAbs / 10 ^ places), c.isDigit = true :=
    fun c hc => Nat.isDigit_of_mem_toDigits (by decide) (by decide) hc
  have hdigits : ∀ c ∈ zeroPadded places (n.natAbs % 10 ^ places), c.isDigit = true := fun c => isDigit_zeroPadded
  have hnonempty : zeroPadded places (n.natAbs % 10 ^ places) ≠ [] := by
    rw [← List.length_pos_iff, hlength]
    exact hplaces
  have hlexical := isDecimalLexical_spelled Nat.toDigits_ne_nil hwhole (canonical_toDigits _) hnonempty hdigits htext
  have hsize : (fixedPoint places n).utf8ByteSize ≤ maxDecimalLen := by
    have hshort : (Nat.toDigits 10 (n.natAbs / 10 ^ places)).length ≤ 20 :=
      (Nat.length_toDigits_le_iff (by decide) (by decide)).2 ((Nat.div_le_self _ _).trans_lt hn)
    have hdot : '.'.utf8Size = 1 := rfl
    have hminus : ((if decide (n < 0) then ['-'] else []).map Char.utf8Size).sum ≤ 1 := by
      by_cases hneg : n < 0
      · rw [decide_eq_true hneg]
        exact Nat.le_refl _
      · rw [decide_eq_false hneg]
        exact Nat.zero_le _
    rw [utf8ByteSize_eq, htext, List.map_append, List.map_append, List.map_cons, List.sum_append, List.sum_append,
      List.sum_cons, utf8Size_digits hwhole, utf8Size_digits hdigits, hlength, hdot]
    show _ ≤ 64
    omega
  have hempty : fixedPoint places n ≠ "" := by
    intro hempty
    rw [hempty] at hlexical
    exact absurd hlexical (by decide)
  refine ⟨⟨fixedPoint places n, hempty, hsize, hlexical⟩, ?_, ?_⟩
  · unfold Decimal.parse
    rw [dif_neg hempty, dif_pos hsize, dif_pos hlexical]
  · have hparts : lexicalParts (fixedPoint places n).toList =
        (decide (n < 0), Nat.toDigits 10 (n.natAbs / 10 ^ places), zeroPadded places (n.natAbs % 10 ^ places)) := by
      rw [htext]
      exact lexicalParts_spelled Nat.toDigits_ne_nil hwhole
    refine ⟨?_, ?_, ?_⟩
    · show (lexicalParts (fixedPoint places n).toList).2.2.length = places
      rw [hparts, hlength]
    · show (lexicalParts (fixedPoint places n).toList).1 = true ↔ n < 0
      rw [hparts, decide_eq_true_eq]
    · show (let (negative, whole, places) := lexicalParts (fixedPoint places n).toList
        (if negative then -1 else 1) * (Nat.ofDigitChars 10 (whole ++ places) 0 : ℚ) / 10 ^ places.length) = _
      rw [hparts]
      simp only [ofDigitChars_fixedPoint hplaces, hlength]
      congr 1
      by_cases hneg : n < 0
      · rw [decide_eq_true hneg, if_pos rfl, neg_one_mul]
        have habs : (n.natAbs : Int) = -n := by omega
        rw [← Int.cast_natCast, habs, Int.cast_neg, neg_neg]
      · rw [decide_eq_false hneg, if_neg Bool.false_ne_true, one_mul]
        have habs : (n.natAbs : Int) = n := by omega
        rw [← Int.cast_natCast, habs]

end Verdant

namespace Verdant.Modbus

open Observation TextCodec

/-! ### Scaling -/

theorem checkedI128_eq_some {n : Int} (h : n.natAbs < 2 ^ 127) : checkedI128 n = some n := by
  unfold checkedI128
  rw [if_pos (by omega)]

/-- What a scaled integer has become. -/
structure Map.Spells (map : Map) (n : Int) (value : Value) : Prop where
  rational : value.rational = some ((n : ℚ) / 10 ^ map.scale.places.toNat)
  integer : map.scale.places = 0 → value = .integer n
  decimal : map.scale.places ≠ 0 → ∃ d, value = .decimal d ∧ d.places = map.scale.places.toNat ∧
    (d.negative = true ↔ n < 0)

def Map.scaledInteger (map : Map) (k : Int) : Int := k * map.scale.numerator.toInt + map.scale.offset.toInt

theorem natAbs_toInt32 (n : Int32) : n.toInt.natAbs ≤ 2 ^ 31 := by
  have hmin := n.le_toInt
  have hmax := n.toInt_lt
  omega

/-- The product of an integer of 32 bits stays far inside. -/
theorem natAbs_product (map : Map) {k : Int} (hk : k.natAbs ≤ 2 ^ 32) :
    (k * map.scale.numerator.toInt).natAbs ≤ 2 ^ 63 := by
  rw [Int.natAbs_mul]
  exact (Nat.mul_le_mul hk (natAbs_toInt32 _)).trans (by decide)

theorem natAbs_scaledInteger (map : Map) {k : Int} (hk : k.natAbs ≤ 2 ^ 32) :
    (map.scaledInteger k).natAbs ≤ 2 ^ 63 + 2 ^ 31 :=
  (Int.natAbs_add_le _ _).trans (Nat.add_le_add (natAbs_product map hk) (natAbs_toInt32 _))

theorem Map.scaled_spells (map : Map) {k : Int} (hk : k.natAbs ≤ 2 ^ 32) :
    ∃ value, map.scaled k = some (value, .valid) ∧ map.Spells (map.scaledInteger k) value := by
  have hproduct := natAbs_product map hk
  have hsum := natAbs_scaledInteger map hk
  have hchecked : checkedI128 (map.scaledInteger k) = some (map.scaledInteger k) :=
    checkedI128_eq_some (hsum.trans_lt (by decide))
  unfold Map.scaled
  rw [checkedI128_eq_some (hproduct.trans_lt (by decide)), Option.bind_eq_bind, Option.bind_some]
  show ∃ value, (checkedI128 (map.scaledInteger k)).bind _ = _ ∧ _
  rw [hchecked, Option.bind_some]
  by_cases hzero : map.scale.places = 0
  · have hnone : map.scale.places.toNat = 0 := by
      rw [hzero]
      rfl
    rw [if_pos hzero]
    refine ⟨_, rfl, ?_, fun _ => rfl, fun h => absurd hzero h⟩
    rw [hnone, pow_zero, div_one]
    rfl
  · have hplaces : 0 < map.scale.places.toNat := by
      refine Nat.pos_of_ne_zero fun hnone => hzero ?_
      exact UInt8.toNat_inj.1 hnone
    have hdivisor : ((10 : Int) ^ map.scale.places.toNat).natAbs < 2 ^ 127 := by
      rw [Int.natAbs_pow]
      exact (Nat.pow_le_pow_right (by decide) map.places).trans_lt (by decide)
    obtain ⟨d, hparse, hd, hsign, hrational⟩ := parse_fixedPoint hplaces map.places (hsum.trans_lt (by decide))
    have habs : ((map.scaledInteger k).natAbs : Int).natAbs < 2 ^ 127 := by
      rw [Int.natAbs_natCast]
      exact hsum.trans_lt (by decide)
    rw [if_neg hzero, checkedI128_eq_some hdivisor, Option.bind_some, checkedI128_eq_some habs, Option.bind_some]
    have hwhole : ((map.scaledInteger k).natAbs / (10 : Int) ^ map.scale.places.toNat).toNat =
        (map.scaledInteger k).natAbs / 10 ^ map.scale.places.toNat := by
      exact_mod_cast Int.toNat_natCast _
    have hrest : ((map.scaledInteger k).natAbs % (10 : Int) ^ map.scale.places.toNat).toNat =
        (map.scaledInteger k).natAbs % 10 ^ map.scale.places.toNat := by
      exact_mod_cast Int.toNat_natCast _
    simp only [hwhole, hrest]
    refine ⟨.decimal d, ?_, ?_, fun h => absurd h hzero, fun _ => ⟨d, rfl, hd, hsign⟩⟩
    · unfold fixedPoint at hparse
      rw [hparse]
    · exact congrArg some hrational

/-! ### The wire -/

def bytesOfWord (w : UInt16) : List UInt8 := [UInt8.ofNat (w.toNat / 256), UInt8.ofNat (w.toNat % 256)]

/-- The big-endian bytes of words. -/
def bytesOfWords (words : List UInt16) : List UInt8 := words.flatMap bytesOfWord

/-- The register bytes of a payload. -/
def Payload.bytes : Payload → List UInt8
  | .bits _ => []
  | .words ws => bytesOfWords ws
  | .registerBytes bs => bs

def bytePairs : List UInt8 → List (UInt8 × UInt8)
  | first :: second :: rest => (first, second) :: bytePairs rest
  | _ => []

/-- The bytes in order of significance. -/
def Map.significantBytes (map : Map) (bytes : List UInt8) : List UInt8 :=
  let words := match map.wordOrder with
    | .highFirst => bytePairs bytes
    | .lowFirst => (bytePairs bytes).reverse
  words.flatMap fun (first, second) => match map.byteOrder with
    | .big => [first, second]
    | .little => [second, first]

def unsigned (bytes : List UInt8) : Nat := bytes.foldl (fun n byte => n * 256 + byte.toNat) 0

def twosComplement (bytes : List UInt8) : Int :=
  if 2 ^ (8 * bytes.length) ≤ 2 * unsigned bytes then (unsigned bytes : Int) - 2 ^ (8 * bytes.length) else unsigned bytes

def Encoding.isInteger : Encoding → Bool
  | .u16 | .i16 | .u32 | .i32 => true
  | .bool | .unsupported _ => false

def Encoding.signed : Encoding → Bool
  | .i16 | .i32 => true
  | _ => false

/-- The integer that the registers hold. -/
def Map.wireInteger (map : Map) (payload : Payload) : Int :=
  if map.encoding.signed then twosComplement (map.significantBytes payload.bytes)
  else unsigned (map.significantBytes payload.bytes)

theorem toNat_high (w : UInt16) : (UInt8.ofNat (w.toNat / 256)).toNat = w.toNat / 256 := by
  have hw := w.toNat_lt
  rw [UInt8.toNat_ofNat']
  omega

theorem toNat_low (w : UInt16) : (UInt8.ofNat (w.toNat % 256)).toNat = w.toNat % 256 := by
  rw [UInt8.toNat_ofNat']
  omega

theorem bytePairs_bytesOfWords (words : List UInt16) :
    bytePairs (bytesOfWords words) = words.map fun w => (UInt8.ofNat (w.toNat / 256), UInt8.ofNat (w.toNat % 256)) := by
  induction words with
  | nil => rfl
  | cons w words ih =>
    rw [List.map_cons, ← ih]
    rfl

theorem toNat_swapBytes (w : UInt16) : (swapBytes w).toNat = w.toNat % 256 * 256 + w.toNat / 256 := by
  have hw := w.toNat_lt
  unfold swapBytes
  rw [UInt16.toNat_ofNat']
  omega

theorem bytesOfWord_swapBytes (w : UInt16) :
    bytesOfWord (swapBytes w) = [UInt8.ofNat (w.toNat % 256), UInt8.ofNat (w.toNat / 256)] := by
  have hw := w.toNat_lt
  have hhigh : (w.toNat % 256 * 256 + w.toNat / 256) / 256 = w.toNat % 256 := by omega
  have hlow : (w.toNat % 256 * 256 + w.toNat / 256) % 256 = w.toNat / 256 := by omega
  unfold bytesOfWord
  rw [toNat_swapBytes, hhigh, hlow]

/-- Arranging words arranges their bytes. -/
theorem significantBytes_bytesOfWords (map : Map) (words : List UInt16) :
    map.significantBytes (bytesOfWords words) = bytesOfWords (map.significant words) := by
  have hbytes : ∀ words : List UInt16,
      (words.map fun w => (UInt8.ofNat (w.toNat / 256), UInt8.ofNat (w.toNat % 256))).flatMap
        (fun (first, second) => match map.byteOrder with
          | .big => [first, second]
          | .little => [second, first]) =
      bytesOfWords (words.map fun w => match map.byteOrder with
        | .big => w
        | .little => swapBytes w) := by
    intro words
    induction words with
    | nil => rfl
    | cons w words ih =>
      rw [List.map_cons, List.flatMap_cons, ih]
      cases map.byteOrder with
      | big => rfl
      | little =>
        show [_, _] ++ _ = bytesOfWord (swapBytes w) ++ _
        rw [bytesOfWord_swapBytes]
        rfl
  unfold Map.significantBytes Map.significant
  rw [bytePairs_bytesOfWords]
  cases map.wordOrder with
  | highFirst => exact hbytes words
  | lowFirst =>
    show ((List.map _ words).reverse).flatMap _ = bytesOfWords (List.map _ words).reverse
    rw [← List.map_reverse, ← List.map_reverse]
    exact hbytes words.reverse

theorem length_significant (map : Map) (words : List UInt16) : (map.significant words).length = words.length := by
  unfold Map.significant
  cases map.wordOrder with
  | highFirst => exact List.length_map _
  | lowFirst => exact (List.length_reverse).trans (List.length_map _)

/-! ### Bytes and words -/

theorem wordsOfBytes_bytesOfWords (words : List UInt16) : wordsOfBytes (bytesOfWords words) = words := by
  induction words with
  | nil => rfl
  | cons w words ih =>
    have hw := w.toNat_lt
    have hword : UInt16.ofNat ((UInt8.ofNat (w.toNat / 256)).toNat * 256 + (UInt8.ofNat (w.toNat % 256)).toNat) = w := by
      rw [toNat_high, toNat_low]
      apply UInt16.toNat_inj.1
      rw [UInt16.toNat_ofNat']
      omega
    show _ :: wordsOfBytes (bytesOfWords words) = _
    rw [hword, ih]

theorem bytesOfWords_wordsOfBytes {bytes : List UInt8} {n : Nat} (h : bytes.length = n * 2) :
    bytesOfWords (wordsOfBytes bytes) = bytes ∧ (wordsOfBytes bytes).length = n := by
  induction n generalizing bytes with
  | zero =>
    obtain rfl := List.eq_nil_of_length_eq_zero (h.trans (Nat.zero_mul 2))
    exact ⟨rfl, rfl⟩
  | succ n ih =>
    rcases bytes with _ | ⟨high, _ | ⟨low, rest⟩⟩
    · exact absurd h (by simp)
    · exact absurd h (by simp only [List.length_cons, List.length_nil]; omega)
    · have hhigh := high.toNat_lt
      have hlow := low.toNat_lt
      obtain ⟨hrest, hlength⟩ := @ih rest (by simp only [List.length_cons] at h; omega)
      have hword : (UInt16.ofNat (high.toNat * 256 + low.toNat)).toNat = high.toNat * 256 + low.toNat := by
        rw [UInt16.toNat_ofNat']
        omega
      have hfirst : (high.toNat * 256 + low.toNat) / 256 = high.toNat := by omega
      have hsecond : (high.toNat * 256 + low.toNat) % 256 = low.toNat := by omega
      constructor
      · show bytesOfWord _ ++ bytesOfWords (wordsOfBytes rest) = _
        rw [hrest, bytesOfWord, hword, hfirst, hsecond, UInt8.ofNat_toNat, UInt8.ofNat_toNat]
        rfl
      · show (wordsOfBytes rest).length + 1 = n + 1
        rw [hlength]

/-! ### Integers -/

theorem unsigned_one (w : UInt16) : unsigned (bytesOfWords [w]) = w.toNat := by
  show (0 * 256 + (UInt8.ofNat (w.toNat / 256)).toNat) * 256 + (UInt8.ofNat (w.toNat % 256)).toNat = _
  rw [toNat_high, toNat_low]
  omega

theorem unsigned_two (high low : UInt16) : unsigned (bytesOfWords [high, low]) = high.toNat * 65536 + low.toNat := by
  show (((0 * 256 + (UInt8.ofNat (high.toNat / 256)).toNat) * 256 + (UInt8.ofNat (high.toNat % 256)).toNat) * 256 +
    (UInt8.ofNat (low.toNat / 256)).toNat) * 256 + (UInt8.ofNat (low.toNat % 256)).toNat = _
  rw [toNat_high, toNat_low, toNat_high, toNat_low]
  omega

theorem toNat_join (high low : UInt16) :
    (high.toUInt32 <<< 16 ||| low.toUInt32).toNat = high.toNat * 65536 + low.toNat := by
  have hhigh := high.toNat_lt
  have hlow := low.toNat_lt
  have hshift : (16 : UInt32).toNat % 32 = 16 := rfl
  have hfits : high.toNat <<< 16 % 2 ^ 32 = high.toNat <<< 16 := by
    rw [Nat.shiftLeft_eq]
    omega
  rw [UInt32.toNat_or, UInt32.toNat_shiftLeft, UInt16.toNat_toUInt32, UInt16.toNat_toUInt32, hshift, hfits,
    ← Nat.shiftLeft_add_eq_or_of_lt hlow, Nat.shiftLeft_eq]

theorem toInt_toInt16 (w : UInt16) : w.toInt16.toInt = twosComplement (bytesOfWords [w]) := by
  have hvalue : w.toInt16.toInt = if 2 * w.toNat < 2 ^ 16 then (w.toNat : Int) else w.toNat - (2 ^ 16 : Nat) :=
    BitVec.toInt_eq_toNat_cond w.toBitVec
  have hlength : (bytesOfWords [w]).length = 2 := rfl
  rw [hvalue, twosComplement, unsigned_one, hlength]
  split <;> split <;> omega

theorem toInt_toInt32 (high low : UInt16) :
    (high.toUInt32 <<< 16 ||| low.toUInt32).toInt32.toInt = twosComplement (bytesOfWords [high, low]) := by
  have hvalue : (high.toUInt32 <<< 16 ||| low.toUInt32).toInt32.toInt =
      if 2 * (high.toUInt32 <<< 16 ||| low.toUInt32).toNat < 2 ^ 32 then
        ((high.toUInt32 <<< 16 ||| low.toUInt32).toNat : Int)
      else (high.toUInt32 <<< 16 ||| low.toUInt32).toNat - (2 ^ 32 : Nat) :=
    BitVec.toInt_eq_toNat_cond (high.toUInt32 <<< 16 ||| low.toUInt32).toBitVec
  have hlength : (bytesOfWords [high, low]).length = 4 := rfl
  rw [hvalue, twosComplement, unsigned_two, hlength, toNat_join]
  split <;> split <;> omega

/-- The words of an integer encoding. -/
theorem Map.quantity_eq (map : Map) (h : map.encoding.isInteger = true) :
    map.read.function.bits = false ∧
      (map.encoding = .u16 ∨ map.encoding = .i16 → map.read.quantity.toNat = 1) ∧
      (map.encoding = .u32 ∨ map.encoding = .i32 → map.read.quantity.toNat = 2) := by
  have hwords := map.words
  generalize map.encoding = encoding at h hwords ⊢
  have hregister : ∀ quantity : UInt16,
      (if ¬ map.read.function.bits = true then Except.ok quantity else Except.error ModbusError.map) =
        .ok map.read.quantity → map.read.function.bits = false ∧ map.read.quantity = quantity := by
    intro quantity hquantity
    cases hbits : map.read.function.bits with
    | true => simp [hbits] at hquantity
    | false =>
      simp only [hbits, Bool.false_eq_true, not_false_eq_true, if_true, Except.ok.injEq] at hquantity
      exact ⟨rfl, hquantity.symm⟩
  cases encoding with
  | bool => exact nomatch h
  | unsupported token => exact nomatch h
  | u16 | i16 =>
    obtain ⟨hbits, hquantity⟩ := hregister 1 hwords
    refine ⟨hbits, fun _ => ?_, fun hother => by simp at hother⟩
    rw [hquantity]
    rfl
  | u32 | i32 =>
    obtain ⟨hbits, hquantity⟩ := hregister 2 hwords
    refine ⟨hbits, fun hother => by simp at hother, fun _ => ?_⟩
    rw [hquantity]
    rfl

theorem natAbs_twosComplement_le {bytes : List UInt8} (h : unsigned bytes < 2 ^ (8 * bytes.length)) :
    (twosComplement bytes).natAbs ≤ 2 ^ (8 * bytes.length) := by
  have hmodulus : (2 : Int) ^ (8 * bytes.length) = (2 ^ (8 * bytes.length) : Nat) := by
    push_cast
    rfl
  unfold twosComplement
  rw [hmodulus]
  generalize 2 ^ (8 * bytes.length) = modulus at h ⊢
  split <;> omega

/-- What the source reads is what the registers hold. -/
theorem integer_significant (map : Map) (hinteger : map.encoding.isInteger = true) {ws : List UInt16}
    (hlength : ws.length = map.read.quantity.toNat) :
    map.encoding.integer (map.significant ws) = some (map.wireInteger (.words ws)) ∧
      (map.wireInteger (.words ws)).natAbs ≤ 2 ^ 32 := by
  obtain ⟨-, hone, htwo⟩ := map.quantity_eq hinteger
  have hwire : map.wireInteger (.words ws) =
      if map.encoding.signed then twosComplement (bytesOfWords (map.significant ws))
      else unsigned (bytesOfWords (map.significant ws)) := by
    unfold Map.wireInteger
    rw [Payload.bytes, significantBytes_bytesOfWords]
  have hsame := length_significant map ws
  rw [hwire]
  generalize map.significant ws = significant at hsame ⊢
  rw [hlength] at hsame
  cases hencoding : map.encoding with
  | bool => exact nomatch hencoding ▸ hinteger
  | unsupported token => exact nomatch hencoding ▸ hinteger
  | u16 =>
    obtain ⟨w, rfl⟩ := List.length_eq_one_iff.1 (hsame.trans (hone (.inl hencoding)))
    have hw := w.toNat_lt
    refine ⟨?_, ?_⟩
    · show some (w.toNat : Int) = some (unsigned (bytesOfWords [w]) : Int)
      rw [unsigned_one]
    · show (unsigned (bytesOfWords [w]) : Int).natAbs ≤ 2 ^ 32
      rw [unsigned_one]
      omega
  | i16 =>
    obtain ⟨w, rfl⟩ := List.length_eq_one_iff.1 (hsame.trans (hone (.inr hencoding)))
    have hw := w.toNat_lt
    have hfits : unsigned (bytesOfWords [w]) < 2 ^ (8 * 2) := by
      rw [unsigned_one]
      exact hw
    have hbound : (twosComplement (bytesOfWords [w])).natAbs ≤ 2 ^ (8 * 2) := natAbs_twosComplement_le hfits
    refine ⟨?_, hbound.trans (by decide)⟩
    show some w.toInt16.toInt = some (twosComplement (bytesOfWords [w]))
    rw [toInt_toInt16]
  | u32 =>
    obtain ⟨high, low, rfl⟩ := List.length_eq_two.1 (hsame.trans (htwo (.inl hencoding)))
    have hhigh := high.toNat_lt
    have hlow := low.toNat_lt
    refine ⟨?_, ?_⟩
    · show some ((high.toUInt32 <<< 16 ||| low.toUInt32).toNat : Int) = some (unsigned (bytesOfWords [high, low]) : Int)
      rw [toNat_join, unsigned_two]
    · show (unsigned (bytesOfWords [high, low]) : Int).natAbs ≤ 2 ^ 32
      rw [unsigned_two]
      omega
  | i32 =>
    obtain ⟨high, low, rfl⟩ := List.length_eq_two.1 (hsame.trans (htwo (.inr hencoding)))
    have hhigh := high.toNat_lt
    have hlow := low.toNat_lt
    have hfits : unsigned (bytesOfWords [high, low]) < 2 ^ (8 * 4) := by
      rw [unsigned_two]
      omega
    have hbound : (twosComplement (bytesOfWords [high, low])).natAbs ≤ 2 ^ (8 * 4) := natAbs_twosComplement_le hfits
    have hsigned : Encoding.signed .i32 = true := rfl
    rw [hsigned, if_pos rfl]
    constructor
    · show some (high.toUInt32 <<< 16 ||| low.toUInt32).toInt32.toInt = _
      rw [toInt_toInt32]
    · exact hbound

/-! ### Decoding -/

/-- The kinds of payload an integer encoding takes. -/
theorem Map.shape_integer {map : Map} {payload : Payload} (hinteger : map.encoding.isInteger = true)
    (hshape : map.shape (some payload) = true) :
    (∃ ws, payload = .words ws ∧ ws.length = map.read.quantity.toNat) ∨
      ∃ bs, payload = .registerBytes bs ∧ bs.length = map.read.quantity.toNat * 2 := by
  obtain ⟨hbits, -⟩ := map.quantity_eq hinteger
  cases payload with
  | bits bits =>
    rw [Map.shape, hbits] at hshape
    exact nomatch hshape
  | words ws =>
    rw [Map.shape, hbits] at hshape
    exact .inl ⟨ws, rfl, beq_iff_eq.1 hshape⟩
  | registerBytes bs =>
    rw [Map.shape, hbits, Read.bytes, hbits] at hshape
    exact .inr ⟨bs, rfl, beq_iff_eq.1 hshape⟩

/-- The two kinds of register payload are read alike. -/
theorem value_bytesOfWords (map : Map) (ws : List UInt16) :
    map.value (some (.registerBytes (bytesOfWords ws))) = map.value (some (.words ws)) := by
  have hlength : (bytesOfWords ws).length = ws.length * 2 := by
    induction ws with
    | nil => rfl
    | cons w ws ih =>
      show (bytesOfWords ws).length + 1 + 1 = _
      rw [ih, List.length_cons]
      omega
  have hshape : map.shape (some (.registerBytes (bytesOfWords ws))) = map.shape (some (.words ws)) := by
    cases hbits : map.read.function.bits with
    | true => simp only [Map.shape, hbits, Bool.not_true, Bool.false_and]
    | false =>
      simp only [Map.shape, Read.bytes, hbits, hlength, Bool.not_false, Bool.true_and, Bool.false_eq_true, if_false]
      rw [Bool.eq_iff_iff, beq_iff_eq, beq_iff_eq]
      omega
  unfold Map.value
  rw [hshape]
  by_cases hfits : map.shape (some (.words ws)) = false
  · rw [if_pos hfits, if_pos hfits]
  · have hbytes : (bytesOfWords ws).length = map.read.bytes := by
      rw [← hshape, Map.shape, Bool.not_eq_false, Bool.and_eq_true, beq_iff_eq] at hfits
      exact hfits.2
    rw [if_neg hfits, if_neg hfits]
    cases map.encoding <;> simp only [hbytes, if_true, wordsOfBytes_bytesOfWords]

theorem Map.value_words {map : Map} (hinteger : map.encoding.isInteger = true) {ws : List UInt16}
    (hlength : ws.length = map.read.quantity.toNat) :
    map.value (some (.words ws)) = map.scaled (map.wireInteger (.words ws)) := by
  obtain ⟨hbits, -⟩ := map.quantity_eq hinteger
  obtain ⟨hread, -⟩ := integer_significant map hinteger hlength
  have hshape : map.shape (some (.words ws)) = true := by
    rw [Map.shape, hbits, hlength, beq_self_eq_true]
    rfl
  unfold Map.value
  rw [hshape, if_neg Bool.noConfusion]
  cases hencoding : map.encoding with
  | bool => exact nomatch hencoding ▸ hinteger
  | unsupported token => exact nomatch hencoding ▸ hinteger
  | u16 | i16 | u32 | i32 =>
    rw [hencoding] at hread
    simp only [hlength, ne_eq, not_true_eq_false, if_false, hread]
    rfl

/-- The number a payload is read as. -/
theorem Map.value_integer {map : Map} {payload : Payload} (hinteger : map.encoding.isInteger = true)
    (hshape : map.shape (some payload) = true) :
    map.value (some payload) = map.scaled (map.wireInteger payload) ∧ (map.wireInteger payload).natAbs ≤ 2 ^ 32 := by
  rcases Map.shape_integer hinteger hshape with ⟨ws, rfl, hlength⟩ | ⟨bs, rfl, hlength⟩
  · exact ⟨Map.value_words hinteger hlength, (integer_significant map hinteger hlength).2⟩
  · obtain ⟨hback, hwords⟩ := bytesOfWords_wordsOfBytes hlength
    have hwire : map.wireInteger (.registerBytes bs) = map.wireInteger (.words (wordsOfBytes bs)) := by
      unfold Map.wireInteger
      rw [Payload.bytes, Payload.bytes, hback]
    rw [hwire, ← Map.value_words hinteger hwords, ← value_bytesOfWords, hback]
    exact ⟨rfl, (integer_significant map hinteger hwords).2⟩

theorem Map.decode_returned {map : Map} {payload : Option Payload} {value : Value} {quality : ValueQuality}
    (h : map.value payload = some (value, quality)) :
    ∃ mapped, map.decode payload .valueReturned = some mapped ∧ mapped.value = value ∧ mapped.quality = quality := by
  unfold Map.decode
  rw [if_neg (not_not.2 rfl), h]
  exact ⟨_, rfl, rfl, rfl⟩

theorem Map.scaledInteger_injective {map : Map} (hnumerator : map.scale.numerator ≠ 0) :
    Function.Injective map.scaledInteger := by
  intro k k' h
  have hnonzero : map.scale.numerator.toInt ≠ 0 := by
    intro hzero
    exact hnumerator (Int32.toInt_inj.1 hzero)
  exact mul_right_cancel₀ hnonzero (add_right_cancel h)

/-- Different scaled integers are different values. -/
theorem Map.Spells.injective {map : Map} {n n' : Int} {value : Value} (h : map.Spells n value)
    (h' : map.Spells n' value) : n = n' := by
  have hsame := Option.some.inj (h.rational.symm.trans h'.rational)
  have hpow : (10 : ℚ) ^ map.scale.places.toNat ≠ 0 := by positivity
  exact_mod_cast (div_left_inj' hpow).1 hsame

theorem Map.isSome_value (map : Map) (payload : Option Payload) : (map.value payload).isSome := by
  cases hshape : map.shape payload with
  | false =>
    unfold Map.value
    rw [if_pos hshape]
    rfl
  | true =>
    cases hinteger : map.encoding.isInteger with
    | true =>
      cases payload with
      | none => cases hshape
      | some payload =>
        obtain ⟨hvalue, hbound⟩ := Map.value_integer hinteger hshape
        obtain ⟨value, hscaled, -⟩ := map.scaled_spells hbound
        rw [hvalue, hscaled]
        rfl
    | false =>
      unfold Map.value
      rw [hshape, if_neg Bool.noConfusion]
      cases hencoding : map.encoding with
      | unsupported token => rfl
      | bool =>
        rcases payload with _ | ⟨_ | ⟨bit, _ | ⟨_, _⟩⟩⟩ | _ | _ <;> rfl
      | u16 | i16 | u32 | i32 =>
        rw [hencoding] at hinteger
        cases hinteger

/-- A register map reads what the registers hold, exactly, and reads nothing else as a number. -/
theorem decode_exact :
    (∀ (map : Map) (payload : Payload), map.encoding.isInteger = true → map.shape (some payload) = true →
      ∃ mapped, map.decode (some payload) .valueReturned = some mapped ∧ mapped.quality = .valid ∧
        map.Spells (map.scaledInteger (map.wireInteger payload)) mapped.value) ∧
      (∀ (map : Map) (payload payload' : Payload) (mapped mapped' : Mapped), map.encoding.isInteger = true →
        map.scale.numerator ≠ 0 → map.shape (some payload) = true → map.shape (some payload') = true →
          map.decode (some payload) .valueReturned = some mapped → map.decode (some payload') .valueReturned = some mapped' →
            mapped.value = mapped'.value → map.wireInteger payload = map.wireInteger payload') ∧
      (∀ (map : Map) (ws : List UInt16) (transport : TransportResult),
        map.decode (some (.registerBytes (bytesOfWords ws))) transport = map.decode (some (.words ws)) transport) ∧
      (∀ (map : Map) (payload : Option Payload), map.shape payload = false →
        ∃ mapped, map.decode payload .valueReturned = some mapped ∧ mapped.quality = .invalid ∧
          mapped.value = .diagnostic (.invalid "map payload shape")) ∧
      (∀ (map : Map) (payload : Option Payload) (token : String), map.encoding = .unsupported token →
        map.shape payload = true → ∃ mapped, map.decode payload .valueReturned = some mapped ∧
          mapped.quality = .unknown token ∧ mapped.value = .diagnostic (.invalid token)) ∧
      (∀ (map : Map) (payload : Option Payload) (transport : TransportResult), transport ≠ .valueReturned →
        ∃ mapped, map.decode payload transport = some mapped ∧ mapped.quality = .missing ∧ mapped.value = .missing) ∧
      ∀ (map : Map) (payload : Option Payload) (transport : TransportResult), (map.decode payload transport).isSome := by
  have hreturned : ∀ (map : Map) (payload : Payload), map.encoding.isInteger = true → map.shape (some payload) = true →
      ∃ mapped, map.decode (some payload) .valueReturned = some mapped ∧ mapped.quality = .valid ∧
        map.Spells (map.scaledInteger (map.wireInteger payload)) mapped.value := by
    intro map payload hinteger hshape
    obtain ⟨hvalue, hbound⟩ := Map.value_integer hinteger hshape
    obtain ⟨value, hscaled, hspells⟩ := map.scaled_spells hbound
    obtain ⟨mapped, hdecode, rfl, hquality⟩ := Map.decode_returned (hvalue.trans hscaled)
    exact ⟨mapped, hdecode, hquality, hspells⟩
  refine ⟨hreturned, ?_, ?_, ?_, ?_, ?_, ?_⟩
  · intro map payload payload' mapped mapped' hinteger hnumerator hshape hshape' hdecode hdecode' hvalue
    obtain ⟨_, hdecoded, -, hspells⟩ := hreturned map payload hinteger hshape
    obtain ⟨_, hdecoded', -, hspells'⟩ := hreturned map payload' hinteger hshape'
    obtain rfl := Option.some.inj (hdecode.symm.trans hdecoded)
    obtain rfl := Option.some.inj (hdecode'.symm.trans hdecoded')
    rw [hvalue] at hspells
    exact Map.scaledInteger_injective hnumerator (hspells.injective hspells')
  · intro map ws transport
    unfold Map.decode
    rw [value_bytesOfWords]
  · intro map payload hshape
    have hvalue : map.value payload = some invalidShape := by
      unfold Map.value
      rw [if_pos hshape]
    obtain ⟨mapped, hdecode, hmapped, hquality⟩ := Map.decode_returned hvalue
    exact ⟨mapped, hdecode, hquality, hmapped⟩
  · intro map payload token hencoding hshape
    have hvalue : map.value payload = some (.diagnostic (.invalid token), .unknown token) := by
      unfold Map.value
      rw [hshape, if_neg Bool.noConfusion, hencoding]
    obtain ⟨mapped, hdecode, hmapped, hquality⟩ := Map.decode_returned hvalue
    exact ⟨mapped, hdecode, hquality, hmapped⟩
  · intro map payload transport htransport
    unfold Map.decode
    rw [if_pos htransport]
    exact ⟨_, rfl, rfl, rfl⟩
  · intro map payload transport
    unfold Map.decode
    by_cases htransport : transport ≠ .valueReturned
    · rw [if_pos htransport]
      rfl
    · obtain ⟨⟨value, quality⟩, hvalue⟩ := Option.isSome_iff_exists.1 (map.isSome_value payload)
      rw [if_neg htransport, hvalue]
      rfl

end Verdant.Modbus
