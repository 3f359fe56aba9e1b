import Verdant.Library.Percent
import Verdant.Modbus.Exact

/-!
# The scalar decoder

Application-tagged bytes of a property read, by the codec of the binding.  The decoder accepts exactly the canonical encodings
(`scalar_exact`): a boolean in the tag octet, an integer of up to eight octets, a finite float whose rendering is an exact
decimal, a character string of charset zero, and nothing behind them.
-/

namespace Verdant.Observation.Normalize

open Modbus TextCodec

def maxValueBytes : Nat := 512

inductive Codec where
  | scalar
  | exactDecimalText
  deriving DecidableEq, Repr

/-! ### Floats -/

/-- An interchange format, by the widths of its fraction and its exponent. -/
structure FloatFormat where
  fraction : Nat
  exponent : Nat
  deriving DecidableEq, Repr

def binary32 : FloatFormat := ⟨23, 8⟩
def binary64 : FloatFormat := ⟨52, 11⟩

namespace FloatFormat

variable (format : FloatFormat) (bits : Nat)

def isFinite : Bool := bits / 2 ^ format.fraction % 2 ^ format.exponent ≠ 2 ^ format.exponent - 1

def isNan : Bool := !format.isFinite bits && bits % 2 ^ format.fraction ≠ 0

def isSignNegative : Bool := bits / 2 ^ (format.fraction + format.exponent) % 2 = 1

def isZero : Bool := bits % 2 ^ (format.fraction + format.exponent) = 0

end FloatFormat

/-! ### The decoder -/

def invalid (reason : String) : Value × ValueQuality := (.diagnostic (.invalid reason), .invalid)

def unknown (reason : String) : Value × ValueQuality := (.diagnostic (.invalid reason), .unknown reason)

def decimal (text : String) : Value × ValueQuality :=
  match Decimal.parse text with
  | .ok value => (.decimal value, .valid)
  | .error _ => invalid "decimal outside exact lexical profile; original bytes retained"

/-- The conversion of a narrow float to `f64` keeps its class and its sign. -/
def real (format : FloatFormat) (bits : Nat) (lexical : String) : Value × ValueQuality :=
  if format.isFinite bits = true then
    if format.isZero bits = true ∧ format.isSignNegative bits = true then decimal "-0.0" else decimal lexical
  else if format.isNan bits = true then (.diagnostic .notANumber, .nonFinite)
  else if format.isSignNegative bits = true then (.diagnostic .negativeInfinity, .nonFinite)
  else (.diagnostic .positiveInfinity, .nonFinite)

/-- `bytes[start..]`; `none` is the panic of a start out of range. -/
def sliceFrom (start : Nat) (bytes : List UInt8) : Option (List UInt8) :=
  if start ≤ bytes.length then some (bytes.drop start) else none

/-- `[bytes[0], …, bytes[count - 1]]`; `none` is the panic of an index out of range. -/
def firstOctets (count : Nat) (bytes : List UInt8) : Option (List UInt8) :=
  if count ≤ bytes.length then some (bytes.take count) else none

/-- `(number << 8) | i128::from(byte)`. -/
def shiftIn (number : BitVec 128) (byte : UInt8) : BitVec 128 := number <<< 8 ||| byte.toBitVec.setWidth 128

/-- Where the content stands: its length and its offset. -/
def extent (bytes : List UInt8) (lvt : Nat) : Option (Except String (Nat × Nat)) :=
  if lvt ≤ 4 then some (.ok (lvt, 1))
  else if lvt = 5 then
    match bytes[1]? with
    | some n =>
      if 5 ≤ n.toNat ∧ n.toNat ≤ 253 then some (.ok (n.toNat, 2))
      else if n.toNat = 254 ∧ 4 ≤ bytes.length then do
        let high : UInt8 ← bytes[2]?
        let low : UInt8 ← bytes[3]?
        if high.toNat * 256 + low.toNat < 254 then some (.error "noncanonical extended length")
        else some (.ok (high.toNat * 256 + low.toNat, 4))
      else some (.error "invalid or unbounded extended length")
    | none => some (.error "invalid or unbounded extended length")
  else some (.error "reserved length")

section Decoder

-- the rendering of a float, which the decoder takes as it is
variable (display : FloatFormat → Nat → String)

/-- The value of a content of the length its tag octet gives. -/
def content (codec : Codec) (tag : Nat) (body : List UInt8) : Option (Value × ValueQuality) :=
  if tag = 0 ∧ body = [] then some (.missing, .missing)
  else if (tag = 2 ∨ tag = 3) ∧ 1 ≤ body.length ∧ body.length ≤ 8 then do
    let first : UInt8 ← if tag = 3 then body[0]? else some 0
    some (.integer (body.foldl shiftIn (if first &&& 128 ≠ 0 then -1 else 0)).toInt, .valid)
  else if tag = 4 ∧ body.length = 4 then do
    let octets ← firstOctets 4 body
    some (real binary32 (unsigned octets) (display binary32 (unsigned octets)))
  else if tag = 5 ∧ body.length = 8 then do
    let octets ← firstOctets 8 body
    some (real binary64 (unsigned octets) (display binary64 (unsigned octets)))
  else if tag = 7 then
    if body.head? ≠ some 0 then some (unknown "unsupported character encoding")
    else do
      let octets ← sliceFrom 1 body
      match String.fromUTF8? ⟨octets.toArray⟩ with
      | some text => if codec = .exactDecimalText then some (decimal text) else some (.text text, .valid)
      | none => some (invalid "invalid UTF-8 character string")
  else if tag ≤ 5 then some (invalid "invalid scalar width")
  else if tag = 6 ∨ 8 ≤ tag ∧ tag ≤ 12 then
    some (unknown "unsupported scalar tag/token; no mode or unit inference")
  else some (unknown "unsupported tag")

/-- The value behind a tag octet of the application class. -/
def tagValue (bytes : List UInt8) (codec : Codec) (tag lvt : Nat) : Option (Value × ValueQuality) :=
  if 5 < lvt then some (invalid "reserved application length")
  else if codec = .exactDecimalText ∧ tag ≠ 7 then
    some (unknown "exact decimal text profile requires CharacterString")
  else if tag = 1 then
    if bytes.length = 1 ∧ lvt ≤ 1 then some (.bool (lvt = 1), .valid) else some (invalid "boolean length/value")
  else do
    match ← extent bytes lvt with
    | .error reason => some (invalid reason)
    | .ok (length, offset) =>
      if bytes.length ≠ offset + length then some (invalid "scalar length/trailing bytes")
      else do
        let body ← sliceFrom offset bytes
        content display codec tag body

def scalar (bytes : List UInt8) (codec : Codec) : Option (Value × ValueQuality) :=
  if bytes = [] ∨ maxValueBytes < bytes.length then some (invalid "empty or oversized application value")
  else do
    let first : UInt8 ← bytes[0]?
    if first &&& 8 ≠ 0 ∨ 13 ≤ (first >>> 4).toNat then
      some (unknown "unsupported context/extended/reserved application tag")
    else tagValue display bytes codec (first >>> 4).toNat (first &&& 7).toNat

end Decoder

/-! ### The grammar -/

/-- One application-tagged content: its length in the tag octet, in one octet, or in two octets. -/
def tagged (tag : Nat) (body : List UInt8) : List UInt8 :=
  if body.length ≤ 4 then UInt8.ofNat (tag * 16 + body.length) :: body
  else if body.length ≤ 253 then UInt8.ofNat (tag * 16 + 5) :: UInt8.ofNat body.length :: body
  else UInt8.ofNat (tag * 16 + 5) :: 254 :: UInt8.ofNat (body.length / 256) :: UInt8.ofNat (body.length % 256) :: body

/-- The canonical encodings, whatever the codec makes of them. -/
inductive Canonical : List UInt8 → Prop
  | boolean (b : Bool) : Canonical [UInt8.ofNat (16 + b.toNat)]
  | integer {tag : Nat} {body : List UInt8} (htag : tag = 2 ∨ tag = 3) (hone : 1 ≤ body.length) (height : body.length ≤ 8) :
      Canonical (tagged tag body)
  | real {body : List UInt8} (hfour : body.length = 4) (hfinite : binary32.isFinite (unsigned body) = true) :
      Canonical (tagged 4 body)
  | double {body : List UInt8} (height : body.length = 8) (hfinite : binary64.isFinite (unsigned body) = true) :
      Canonical (tagged 5 body)
  | text {text : String} (hbound : (bytesOf text).length ≤ 507) : Canonical (tagged 7 (0 :: bytesOf text))

/-- The text of a finite float. -/
def lexical (display : FloatFormat → Nat → String) (format : FloatFormat) (bits : Nat) : String :=
  if format.isZero bits = true ∧ format.isSignNegative bits = true then "-0.0" else display format bits

/-- What a canonical encoding stands for under a codec. -/
inductive Denotes (display : FloatFormat → Nat → String) : Codec → List UInt8 → Value → Prop
  | boolean (b : Bool) : Denotes display .scalar [UInt8.ofNat (16 + b.toNat)] (.bool b)
  | unsigned {body : List UInt8} (hone : 1 ≤ body.length) (height : body.length ≤ 8) :
      Denotes display .scalar (tagged 2 body) (.integer (unsigned body))
  | signed {body : List UInt8} (hone : 1 ≤ body.length) (height : body.length ≤ 8) :
      Denotes display .scalar (tagged 3 body) (.integer (twosComplement body))
  | real {body : List UInt8} {d : Decimal} (hfour : body.length = 4) (hfinite : binary32.isFinite (unsigned body) = true)
      (htext : d.text = lexical display binary32 (unsigned body)) : Denotes display .scalar (tagged 4 body) (.decimal d)
  | double {body : List UInt8} {d : Decimal} (height : body.length = 8)
      (hfinite : binary64.isFinite (unsigned body) = true)
      (htext : d.text = lexical display binary64 (unsigned body)) : Denotes display .scalar (tagged 5 body) (.decimal d)
  | text {text : String} (hbound : (bytesOf text).length ≤ 507) :
      Denotes display .scalar (tagged 7 (0 :: bytesOf text)) (.text text)
  | exact (d : Decimal) : Denotes display .exactDecimalText (tagged 7 (0 :: bytesOf d.text)) (.decimal d)


/-! ### Tag octets -/

theorem octet_split : ∀ tag : Fin 16, ∀ lvt : Fin 8, UInt8.ofNat (tag.val * 16 + lvt.val) &&& 8 = 0 ∧
    (UInt8.ofNat (tag.val * 16 + lvt.val) >>> 4).toNat = tag.val ∧
    (UInt8.ofNat (tag.val * 16 + lvt.val) &&& 7).toNat = lvt.val := by decide +kernel

theorem octet_join_fin : ∀ n : Fin 256, UInt8.ofNat n.val &&& 8 = 0 →
    UInt8.ofNat n.val = UInt8.ofNat ((UInt8.ofNat n.val >>> 4).toNat * 16 + (UInt8.ofNat n.val &&& 7).toNat) := by
  decide +kernel

theorem octet_join {first : UInt8} (h : first &&& 8 = 0) :
    first = UInt8.ofNat ((first >>> 4).toNat * 16 + (first &&& 7).toNat) := by
  have hjoin := octet_join_fin ⟨first.toNat, first.toNat_lt⟩
  simp only [UInt8.ofNat_toNat] at hjoin
  exact hjoin h

theorem sign_fin : ∀ n : Fin 256, UInt8.ofNat n.val &&& 128 ≠ 0 ↔ 128 ≤ n.val := by decide +kernel

theorem sign_iff (first : UInt8) : first &&& 128 ≠ 0 ↔ 128 ≤ first.toNat := by
  have hsign := sign_fin ⟨first.toNat, first.toNat_lt⟩
  simp only [UInt8.ofNat_toNat] at hsign
  exact hsign

/-! ### Integers -/

theorem unsigned_snoc (bytes : List UInt8) (b : UInt8) : unsigned (bytes ++ [b]) = unsigned bytes * 256 + b.toNat := by
  unfold unsigned
  rw [List.foldl_append]
  rfl

theorem unsigned_lt (bytes : List UInt8) : unsigned bytes < 256 ^ bytes.length := by
  induction bytes using List.reverseRecOn with
  | nil => decide
  | append_singleton bytes b ih =>
    have hb := b.toNat_lt
    rw [unsigned_snoc, List.length_append, List.length_singleton, pow_succ]
    omega

theorem unsigned_cons (b : UInt8) (bytes : List UInt8) :
    unsigned (b :: bytes) = b.toNat * 256 ^ bytes.length + unsigned bytes := by
  induction bytes using List.reverseRecOn with
  | nil =>
    show 0 * 256 + b.toNat = b.toNat * 1 + 0
    omega
  | append_singleton bytes c ih =>
    rw [← List.cons_append, unsigned_snoc, ih, unsigned_snoc, List.length_append, List.length_singleton, pow_succ]
    ring

theorem shiftIn_eq (n : Int) (b : UInt8) : shiftIn (BitVec.ofInt 128 n) b = BitVec.ofInt 128 (n * 256 + b.toNat) := by
  have hdisjoint : (BitVec.ofInt 128 n <<< 8 &&& b.toBitVec.setWidth 128) = 0#128 := by
    ext i hi
    simp only [BitVec.getElem_and, BitVec.getElem_shiftLeft, BitVec.getElem_setWidth, BitVec.getElem_zero]
    by_cases hlow : i < 8
    · simp [hlow]
    · simp [hlow, BitVec.getLsbD_of_ge b.toBitVec i (by omega)]
  unfold shiftIn
  rw [← BitVec.add_eq_or_of_and_eq_zero _ _ hdisjoint, BitVec.ofInt_add, BitVec.ofInt_mul]
  have hshift : BitVec.ofInt 128 n <<< 8 = BitVec.ofInt 128 n * BitVec.ofInt 128 256 :=
    BitVec.shiftLeft_eq_mul_twoPow _ _
  have hbyte : b.toBitVec.setWidth 128 = BitVec.ofInt 128 (b.toNat : Int) := by
    apply BitVec.eq_of_toNat_eq
    simp
  rw [hshift, hbyte]

theorem foldl_shiftIn (seed : Int) (bytes : List UInt8) :
    bytes.foldl shiftIn (BitVec.ofInt 128 seed) = BitVec.ofInt 128 (seed * 256 ^ bytes.length + unsigned bytes) := by
  induction bytes using List.reverseRecOn with
  | nil => simp [unsigned]
  | append_singleton bytes b ih =>
    rw [List.foldl_append, ih, List.foldl_cons, List.foldl_nil, shiftIn_eq, unsigned_snoc, List.length_append,
      List.length_singleton, pow_succ]
    congr 1
    push_cast
    ring

theorem toInt_shifted {seed : Int} {bytes : List UInt8} (hseed : seed = -1 ∨ seed = 0) (h : bytes.length ≤ 8) :
    (bytes.foldl shiftIn (BitVec.ofInt 128 seed)).toInt = seed * 256 ^ bytes.length + unsigned bytes := by
  have hlt := unsigned_lt bytes
  have hpow : 256 ^ bytes.length ≤ 256 ^ 8 := Nat.pow_le_pow_right (by decide) h
  have hcast : ((256 ^ bytes.length : Nat) : Int) = 256 ^ bytes.length := by push_cast; rfl
  rw [foldl_shiftIn, BitVec.toInt_ofInt_eq_self (by decide)] <;> rcases hseed with rfl | rfl <;> omega

theorem twosComplement_cons (b : UInt8) (bytes : List UInt8) :
    twosComplement (b :: bytes) =
      (if b &&& 128 ≠ 0 then -1 else 0) * 256 ^ (b :: bytes).length + unsigned (b :: bytes) := by
  have hlt := unsigned_lt bytes
  have hpow : (2 : Nat) ^ (8 * (b :: bytes).length) = 256 * 256 ^ bytes.length := by
    rw [pow_mul, List.length_cons, pow_succ]
    exact Nat.mul_comm _ _
  have hhalf : 256 * 256 ^ bytes.length ≤ 2 * (b.toNat * 256 ^ bytes.length + unsigned bytes) ↔ 128 ≤ b.toNat := by
    constructor
    · intro h
      by_contra hlow
      have hle : b.toNat * 256 ^ bytes.length ≤ 127 * 256 ^ bytes.length := Nat.mul_le_mul_right _ (by omega)
      omega
    · intro h
      have hle : 128 * 256 ^ bytes.length ≤ b.toNat * 256 ^ bytes.length := Nat.mul_le_mul_right _ h
      omega
  have hcast : (2 : Int) ^ (8 * (b :: bytes).length) = 256 ^ (b :: bytes).length := by rw [pow_mul]; rfl
  unfold twosComplement
  rw [hpow, unsigned_cons, hcast]
  by_cases h : 128 ≤ b.toNat
  · rw [if_pos (hhalf.2 h), if_pos ((sign_iff b).2 h)]
    ring
  · rw [if_neg (mt hhalf.1 h), if_neg (mt (sign_iff b).1 h)]
    ring


/-! ### Framing -/

section Framing

variable (display : FloatFormat → Nat → String)

theorem scalar_cons {tag lvt : Nat} (htag : tag < 13) (hlvt : lvt < 8) {rest : List UInt8} (codec : Codec)
    (hbound : rest.length < maxValueBytes) :
    scalar display (UInt8.ofNat (tag * 16 + lvt) :: rest) codec =
      tagValue display (UInt8.ofNat (tag * 16 + lvt) :: rest) codec tag lvt := by
  obtain ⟨hclass, htag', hlvt'⟩ := octet_split ⟨tag, by omega⟩ ⟨lvt, hlvt⟩
  have hsize : ¬ (UInt8.ofNat (tag * 16 + lvt) :: rest = [] ∨
      maxValueBytes < (UInt8.ofNat (tag * 16 + lvt) :: rest).length) := by
    rintro (h | h)
    · cases h
    · rw [List.length_cons] at h
      omega
  unfold scalar
  rw [if_neg hsize, List.getElem?_cons_zero]
  simp only [Option.bind_eq_bind, Option.bind_some]
  simp only at hclass htag' hlvt'
  rw [htag', hlvt', hclass, if_neg]
  rintro (h | h)
  · exact h rfl
  · omega

/-- A content whose extent ends with the bytes is read. -/
theorem tagValue_framed {bytes body : List UInt8} {codec : Codec} {tag lvt : Nat} (offset : Nat) (hlvt : lvt ≤ 5)
    (htag : tag ≠ 1) (hcodec : codec = .exactDecimalText → tag = 7)
    (hextent : extent bytes lvt = some (.ok (body.length, offset))) (hlength : bytes.length = offset + body.length)
    (hbody : bytes.drop offset = body) : tagValue display bytes codec tag lvt = content display codec tag body := by
  have hdecimal : ¬ (codec = .exactDecimalText ∧ tag ≠ 7) := fun h => h.2 (hcodec h.1)
  have hslice : sliceFrom offset bytes = some body := by
    unfold sliceFrom
    rw [if_pos (by omega), hbody]
  unfold tagValue
  rw [if_neg (Nat.not_lt.2 hlvt), if_neg hdecimal, if_neg htag, hextent]
  simp only [Option.bind_eq_bind, Option.bind_some, hlength, ne_eq, not_true_eq_false, if_false, hslice]

theorem length_tagged_le {tag : Nat} {body : List UInt8} (h : body.length ≤ 508) :
    (tagged tag body).length ≤ maxValueBytes := by
  unfold tagged maxValueBytes
  split_ifs <;> simp only [List.length_cons] <;> omega

theorem toNat_ofNat {n : Nat} (h : n < 256) : (UInt8.ofNat n).toNat = n := by
  rw [UInt8.toNat_ofNat']
  exact Nat.mod_eq_of_lt h

theorem scalar_tagged {tag : Nat} {body : List UInt8} {codec : Codec} (htag : tag < 13) (hone : tag ≠ 1)
    (hcodec : codec = .exactDecimalText → tag = 7) (hbound : body.length ≤ 508) :
    scalar display (tagged tag body) codec = content display codec tag body := by
  unfold tagged
  by_cases hshort : body.length ≤ 4
  · rw [if_pos hshort, scalar_cons display htag (by omega) codec (by unfold maxValueBytes; omega)]
    refine tagValue_framed display 1 (by omega) hone hcodec ?_ ?_ rfl
    · unfold extent
      rw [if_pos hshort]
    · rw [List.length_cons, Nat.add_comm]
  rw [if_neg hshort]
  by_cases hmiddle : body.length ≤ 253
  · rw [if_pos hmiddle, scalar_cons display htag (by omega) codec
      (by rw [List.length_cons]; unfold maxValueBytes; omega)]
    refine tagValue_framed display 2 (by omega) hone hcodec ?_ ?_ rfl
    · unfold extent
      rw [if_neg (by decide), if_pos rfl, List.getElem?_cons_succ, List.getElem?_cons_zero]
      simp only
      rw [toNat_ofNat (by omega), if_pos ⟨by omega, hmiddle⟩]
    · rw [List.length_cons, List.length_cons]
      omega
  · rw [if_neg hmiddle, scalar_cons display htag (by omega) codec
      (by simp only [List.length_cons]; unfold maxValueBytes; omega)]
    refine tagValue_framed display 4 (by omega) hone hcodec ?_ ?_ rfl
    · have hlen : (UInt8.ofNat (body.length / 256)).toNat * 256 + (UInt8.ofNat (body.length % 256)).toNat = body.length := by
        rw [toNat_ofNat (by omega), toNat_ofNat (by omega)]
        omega
      unfold extent
      rw [if_neg (by decide), if_pos rfl, List.getElem?_cons_succ, List.getElem?_cons_zero]
      simp only
      rw [if_neg (by decide), if_pos ⟨rfl, by simp only [List.length_cons]; omega⟩]
      simp only [List.getElem?_cons_succ, List.getElem?_cons_zero, Option.bind_eq_bind, Option.bind_some, hlen]
      rw [if_neg (by omega)]
    · simp only [List.length_cons]
      omega

/-- What lies behind the extent was encoded in its canonical form. -/
theorem tagged_of_extent {tag lvt length offset : Nat} {rest : List UInt8}
    (hextent : extent (UInt8.ofNat (tag * 16 + lvt) :: rest) lvt = some (.ok (length, offset)))
    (hlength : (UInt8.ofNat (tag * 16 + lvt) :: rest).length = offset + length) :
    UInt8.ofNat (tag * 16 + lvt) :: rest = tagged tag ((UInt8.ofNat (tag * 16 + lvt) :: rest).drop offset) ∧
      offset ≤ (UInt8.ofNat (tag * 16 + lvt) :: rest).length := by
  refine ⟨?_, by omega⟩
  unfold extent at hextent
  by_cases hshort : lvt ≤ 4
  · rw [if_pos hshort] at hextent
    cases hextent
    have hrest : rest.length = lvt := by
      rw [List.length_cons] at hlength
      omega
    show _ = tagged tag rest
    unfold tagged
    rw [hrest, if_pos hshort]
  rw [if_neg hshort] at hextent
  by_cases hfive : lvt = 5
  swap
  · rw [if_neg hfive] at hextent
    cases hextent
  subst hfive
  rw [if_pos rfl, List.getElem?_cons_succ] at hextent
  cases rest with
  | nil => cases hextent
  | cons n rest =>
    rw [List.getElem?_cons_zero] at hextent
    simp only at hextent
    by_cases hmiddle : 5 ≤ n.toNat ∧ n.toNat ≤ 253
    · rw [if_pos hmiddle] at hextent
      cases hextent
      have hrest : rest.length = n.toNat := by
        simp only [List.length_cons] at hlength
        omega
      show _ = tagged tag rest
      unfold tagged
      rw [hrest, if_neg (by omega), if_pos hmiddle.2, UInt8.ofNat_toNat]
    rw [if_neg hmiddle] at hextent
    by_cases hwide : n.toNat = 254 ∧ 4 ≤ (UInt8.ofNat (tag * 16 + 5) :: n :: rest).length
    swap
    · rw [if_neg hwide] at hextent
      cases hextent
    obtain ⟨hn, hlong⟩ := hwide
    rw [if_pos ⟨hn, hlong⟩] at hextent
    cases rest with
    | nil =>
      simp only [List.length_cons, List.length_nil] at hlong
      omega
    | cons high rest =>
    cases rest with
    | nil =>
      simp only [List.length_cons, List.length_nil] at hlong
      omega
    | cons low rest =>
      simp only [List.getElem?_cons_succ, List.getElem?_cons_zero, Option.bind_eq_bind, Option.bind_some] at hextent
      by_cases hcanonical : high.toNat * 256 + low.toNat < 254
      · rw [if_pos hcanonical] at hextent
        cases hextent
      rw [if_neg hcanonical] at hextent
      cases hextent
      have hlow := low.toNat_lt
      have hrest : rest.length = high.toNat * 256 + low.toNat := by
        simp only [List.length_cons] at hlength
        omega
      have hn' : n = 254 := UInt8.toNat_inj.1 hn
      have hdiv : rest.length / 256 = high.toNat := by omega
      have hmod : rest.length % 256 = low.toNat := by omega
      show _ = tagged tag rest
      unfold tagged
      rw [if_neg (by omega), if_neg (by omega), hdiv, hmod, UInt8.ofNat_toNat, UInt8.ofNat_toNat, hn']

theorem extent_total (bytes : List UInt8) (lvt : Nat) : ∃ answer, extent bytes lvt = some answer := by
  unfold extent
  split
  · exact ⟨_, rfl⟩
  split
  · split
    · split
      · exact ⟨_, rfl⟩
      · split
        · rename_i hwide
          obtain ⟨-, hlong⟩ := hwide
          rw [List.getElem?_eq_getElem (show 2 < bytes.length by omega),
            List.getElem?_eq_getElem (show 3 < bytes.length by omega)]
          simp only [Option.bind_eq_bind, Option.bind_some]
          split <;> exact ⟨_, rfl⟩
        · exact ⟨_, rfl⟩
    · exact ⟨_, rfl⟩
  · exact ⟨_, rfl⟩

end Framing

/-! ### Contents -/

section Contents

variable (display : FloatFormat → Nat → String)

theorem parse_eq_ok {text : String} {d : Decimal} : Decimal.parse text = .ok d ↔ d.text = text := by
  constructor
  · intro h
    unfold Decimal.parse at h
    split at h
    · cases h
    split at h
    · split at h
      · rw [← Except.ok.inj h]
      · cases h
    · cases h
  · rintro rfl
    exact Decimal.parse_text d

theorem decimal_eq_valid {text : String} {v : Value} :
    decimal text = (v, .valid) ↔ ∃ d : Decimal, d.text = text ∧ v = .decimal d := by
  unfold decimal
  constructor
  · intro h
    cases hparse : Decimal.parse text with
    | error e =>
      rw [hparse] at h
      cases h
    | ok d =>
      rw [hparse] at h
      exact ⟨d, parse_eq_ok.1 hparse, (Prod.mk.inj h).1.symm⟩
  · rintro ⟨d, hd, rfl⟩
    rw [parse_eq_ok.2 hd]

theorem real_eq_valid {format : FloatFormat} {bits : Nat} {v : Value} :
    real format bits (display format bits) = (v, .valid) ↔
      format.isFinite bits = true ∧ ∃ d : Decimal, d.text = lexical display format bits ∧ v = .decimal d := by
  unfold real
  by_cases hfinite : format.isFinite bits = true
  · rw [if_pos hfinite]
    unfold lexical
    split
    · exact decimal_eq_valid.trans (and_iff_right hfinite).symm
    · exact decimal_eq_valid.trans (and_iff_right hfinite).symm
  · rw [if_neg hfinite]
    constructor
    · intro h
      split at h
      · cases h
      · split at h <;> cases h
    · rintro ⟨h, -⟩
      exact absurd h hfinite

/-- The integer of a content, by the seed that the sign bit gives. -/
theorem content_integer {codec : Codec} {tag : Nat} {body : List UInt8} (htag : tag = 2 ∨ tag = 3)
    (hone : 1 ≤ body.length) (height : body.length ≤ 8) :
    content display codec tag body =
      some (.integer (if tag = 3 then twosComplement body else unsigned body), .valid) := by
  have hzero : ¬ (tag = 0 ∧ body = []) := by
    rintro ⟨rfl, -⟩
    omega
  unfold content
  rw [if_neg hzero, if_pos ⟨htag, hone, height⟩]
  cases body with
  | nil => exact absurd hone (by decide)
  | cons b rest =>
    have hminus : (-1 : BitVec 128) = BitVec.ofInt 128 (-1) := by decide
    have hnought : (0 : BitVec 128) = BitVec.ofInt 128 0 := by decide
    rcases htag with rfl | rfl
    · simp only [if_neg (show ¬ 2 = 3 by decide), Option.bind_eq_bind, Option.bind_some]
      rw [if_neg (by decide), hnought, toInt_shifted (.inr rfl) height, Int.zero_mul, Int.zero_add]
    · rw [if_pos rfl, if_pos rfl, List.getElem?_cons_zero]
      simp only [Option.bind_eq_bind, Option.bind_some]
      rw [twosComplement_cons]
      by_cases hsign : b &&& 128 ≠ 0
      · rw [if_pos hsign, if_pos hsign, hminus, toInt_shifted (.inl rfl) height]
      · rw [if_neg hsign, if_neg hsign, hnought, toInt_shifted (.inr rfl) height]

theorem firstOctets_length {count : Nat} {body : List UInt8} (h : body.length = count) :
    firstOctets count body = some body := by
  unfold firstOctets
  rw [if_pos (Nat.le_of_eq h.symm), ← h, List.take_length]

theorem sliceFrom_cons (b : UInt8) (bytes : List UInt8) : sliceFrom 1 (b :: bytes) = some bytes := by
  have hone : 1 ≤ (b :: bytes).length := Nat.succ_pos _
  unfold sliceFrom
  rw [if_pos hone, List.drop_one, List.tail_cons]

theorem content_float {codec : Codec} {tag : Nat} {format : FloatFormat} {body : List UInt8}
    (h : tag = 4 ∧ body.length = 4 ∧ format = binary32 ∨ tag = 5 ∧ body.length = 8 ∧ format = binary64) :
    content display codec tag body =
      some (real format (unsigned body) (display format (unsigned body))) := by
  rcases h with ⟨rfl, hlength, rfl⟩ | ⟨rfl, hlength, rfl⟩
  · unfold content
    rw [if_neg (by rintro ⟨h, -⟩; cases h), if_neg (by rintro ⟨h | h, -⟩ <;> cases h), if_pos ⟨rfl, hlength⟩,
      firstOctets_length hlength]
    rfl
  · unfold content
    rw [if_neg (by rintro ⟨h, -⟩; cases h), if_neg (by rintro ⟨h | h, -⟩ <;> cases h),
      if_neg (by rintro ⟨h, -⟩; cases h), if_pos ⟨rfl, hlength⟩,
      firstOctets_length hlength]
    rfl

/-- The value of a character string under a codec. -/
def textValue (codec : Codec) (text : String) : Value × ValueQuality :=
  if codec = .exactDecimalText then decimal text else (.text text, .valid)

theorem content_text (codec : Codec) (text : String) :
    content display codec 7 (0 :: bytesOf text) = some (textValue codec text) := by
  unfold content
  rw [if_neg (by rintro ⟨h, -⟩; cases h), if_neg (by rintro ⟨h | h, -⟩ <;> cases h),
    if_neg (by rintro ⟨h, -⟩; cases h), if_neg (by rintro ⟨h, -⟩; cases h), if_pos rfl, if_neg (fun h => h rfl)]
  rw [sliceFrom_cons]
  simp only [Option.bind_eq_bind, Option.bind_some]
  rw [fromUTF8_bytesOf]
  unfold textValue
  by_cases hcodec : codec = .exactDecimalText
  · simp only [if_pos hcodec]
  · simp only [if_neg hcodec]

theorem fromUTF8_eq_some {octets : List UInt8} {text : String} (h : String.fromUTF8? ⟨octets.toArray⟩ = some text) :
    octets = bytesOf text := by
  unfold String.fromUTF8? at h
  split at h
  · cases h
    rfl
  · cases h

/-- A valid content is an integer, a float or a character string. -/
theorem content_eq_valid {codec : Codec} {tag : Nat} {body : List UInt8} {v : Value}
    (h : content display codec tag body = some (v, .valid)) :
    ((tag = 2 ∨ tag = 3) ∧ 1 ≤ body.length ∧ body.length ≤ 8) ∨ (tag = 4 ∧ body.length = 4) ∨
      (tag = 5 ∧ body.length = 8) ∨ ∃ text, tag = 7 ∧ body = 0 :: bytesOf text := by
  unfold content at h
  split at h
  · cases h
  split at h
  · rename_i hinteger
    exact .inl hinteger
  split at h
  · rename_i hreal
    exact .inr (.inl hreal)
  split at h
  · rename_i hdouble
    exact .inr (.inr (.inl hdouble))
  split at h
  · rename_i htext
    refine .inr (.inr (.inr ?_))
    cases body with
    | nil => cases h
    | cons charset octets =>
      split at h
      · cases h
      · rename_i hcharset
        rw [List.head?_cons, ne_eq, not_not] at hcharset
        cases hcharset
        rw [sliceFrom_cons] at h
        simp only [Option.bind_eq_bind, Option.bind_some] at h
        split at h
        · rename_i text hutf8
          exact ⟨text, htext, by rw [fromUTF8_eq_some hutf8]⟩
        · cases h
  split at h
  · cases h
  split at h <;> cases h

theorem content_total (codec : Codec) (tag : Nat) (body : List UInt8) : ∃ r, content display codec tag body = some r := by
  unfold content
  split
  · exact ⟨_, rfl⟩
  split
  · rename_i hinteger
    cases body with
    | nil => exact absurd hinteger.2.1 (by decide)
    | cons b rest =>
      rw [List.getElem?_cons_zero]
      split <;> exact ⟨_, rfl⟩
  split
  · rename_i hreal
    unfold firstOctets
    rw [if_pos (by omega)]
    exact ⟨_, rfl⟩
  split
  · rename_i hdouble
    unfold firstOctets
    rw [if_pos (by omega)]
    exact ⟨_, rfl⟩
  split
  · split
    · exact ⟨_, rfl⟩
    · rename_i hcharset
      have hone : 1 ≤ body.length := by
        cases body with
        | nil => exact absurd (by intro h; cases h) hcharset
        | cons charset octets => exact Nat.succ_pos _
      unfold sliceFrom
      rw [if_pos hone]
      simp only [Option.bind_eq_bind, Option.bind_some]
      split
      · split <;> exact ⟨_, rfl⟩
      · exact ⟨_, rfl⟩
  split
  · exact ⟨_, rfl⟩
  split <;> exact ⟨_, rfl⟩

end Contents

/-! ### Exactness -/

section Exact

variable (display : FloatFormat → Nat → String)

theorem tagValue_total {bytes : List UInt8} (codec : Codec) (tag lvt : Nat) :
    ∃ r, tagValue display bytes codec tag lvt = some r := by
  unfold tagValue
  split
  · exact ⟨_, rfl⟩
  split
  · exact ⟨_, rfl⟩
  split
  · split <;> exact ⟨_, rfl⟩
  obtain ⟨answer, hanswer⟩ := extent_total bytes lvt
  rw [hanswer]
  cases answer with
  | error reason => exact ⟨_, rfl⟩
  | ok span =>
    obtain ⟨length, offset⟩ := span
    simp only [Option.bind_eq_bind, Option.bind_some]
    split
    · exact ⟨_, rfl⟩
    · rename_i hlength
      rw [ne_eq, not_not] at hlength
      unfold sliceFrom
      rw [if_pos (by omega)]
      exact content_total display codec tag _

/-- No index is out of range. -/
theorem scalar_total (bytes : List UInt8) (codec : Codec) : ∃ r, scalar display bytes codec = some r := by
  unfold scalar
  split
  · exact ⟨_, rfl⟩
  · rename_i hsize
    cases bytes with
    | nil => exact absurd (.inl rfl) hsize
    | cons first rest =>
      rw [List.getElem?_cons_zero]
      simp only [Option.bind_eq_bind, Option.bind_some]
      split
      · exact ⟨_, rfl⟩
      · exact tagValue_total display codec _ _

/-- What a valid value was read from: a boolean in the tag octet, or a framed content. -/
theorem tagValue_eq_valid {codec : Codec} {tag lvt : Nat} {rest : List UInt8} {v : Value} (htag : tag < 13)
    (h : tagValue display (UInt8.ofNat (tag * 16 + lvt) :: rest) codec tag lvt = some (v, .valid)) :
    (∃ b, codec = .scalar ∧ UInt8.ofNat (tag * 16 + lvt) :: rest = [UInt8.ofNat (16 + b.toNat)] ∧ v = .bool b) ∨
      ∃ body, tag ≠ 1 ∧ (codec = .exactDecimalText → tag = 7) ∧
        UInt8.ofNat (tag * 16 + lvt) :: rest = tagged tag body ∧ content display codec tag body = some (v, .valid) := by
  unfold tagValue at h
  split at h
  · cases h
  split at h
  · cases h
  rename_i hcodec
  split at h
  · rename_i hboolean
    subst hboolean
    split at h
    · rename_i hshort
      obtain ⟨hlength, hlvt⟩ := hshort
      refine .inl ⟨decide (lvt = 1), ?_, ?_, ?_⟩
      · cases codec with
        | scalar => rfl
        | exactDecimalText => exact absurd ⟨rfl, by decide⟩ hcodec
      · have hrest : rest = [] := by
          rw [List.length_cons] at hlength
          exact List.eq_nil_of_length_eq_zero (by omega)
        rw [hrest]
        interval_cases lvt <;> rfl
      · exact (Prod.mk.inj (Option.some.inj h)).1.symm
    · cases h
  rename_i hone
  obtain ⟨answer, hanswer⟩ := extent_total (UInt8.ofNat (tag * 16 + lvt) :: rest) lvt
  rw [hanswer] at h
  cases answer with
  | error reason => cases h
  | ok span =>
    obtain ⟨length, offset⟩ := span
    simp only [Option.bind_eq_bind, Option.bind_some] at h
    split at h
    · cases h
    · rename_i hlength
      rw [ne_eq, not_not] at hlength
      obtain ⟨hframed, hle⟩ := tagged_of_extent hanswer hlength
      have hslice : sliceFrom offset (UInt8.ofNat (tag * 16 + lvt) :: rest) =
          some ((UInt8.ofNat (tag * 16 + lvt) :: rest).drop offset) := by
        unfold sliceFrom
        rw [if_pos hle]
      rw [hslice] at h
      refine .inr ⟨_, hone, fun hexact => ?_, hframed, h⟩
      by_contra hne
      exact hcodec ⟨hexact, hne⟩

theorem scalar_eq_valid {codec : Codec} {bytes : List UInt8} {v : Value}
    (h : scalar display bytes codec = some (v, .valid)) :
    (∃ b, codec = .scalar ∧ bytes = [UInt8.ofNat (16 + b.toNat)] ∧ v = .bool b) ∨
      ∃ tag body, tag ≠ 1 ∧ (codec = .exactDecimalText → tag = 7) ∧ bytes = tagged tag body ∧
        bytes.length ≤ maxValueBytes ∧ content display codec tag body = some (v, .valid) := by
  unfold scalar at h
  split at h
  · cases h
  rename_i hsize
  rw [not_or, Nat.not_lt] at hsize
  cases bytes with
  | nil => exact absurd rfl hsize.1
  | cons first rest =>
    rw [List.getElem?_cons_zero] at h
    simp only [Option.bind_eq_bind, Option.bind_some] at h
    split at h
    · cases h
    rename_i hclass
    rw [not_or, ne_eq, not_not, Nat.not_le] at hclass
    have hfirst := octet_join hclass.1
    generalize (first >>> 4).toNat = tag, (first &&& 7).toNat = lvt at h hclass hfirst
    subst hfirst
    rcases tagValue_eq_valid display hclass.2 h with hboolean | ⟨body, hone, hcodec, hframed, hcontent⟩
    · exact .inl hboolean
    · exact .inr ⟨tag, body, hone, hcodec, hframed, hsize.2, hcontent⟩

theorem length_body_le {tag : Nat} {body : List UInt8} (h : (tagged tag body).length ≤ maxValueBytes) :
    body.length ≤ 508 := by
  unfold tagged maxValueBytes at h
  by_contra hlong
  rw [if_neg (by omega), if_neg (by omega)] at h
  simp only [List.length_cons] at h
  omega

/-- A decimal fits in one extended content. -/
theorem length_decimal_le (d : Decimal) : (bytesOf d.text).length ≤ maxDecimalLen := by
  rw [length_bytesOf]
  exact d.valid.2.1

/-- The decoder reads what is denoted. -/
theorem scalar_of_denotes {codec : Codec} {bytes : List UInt8} {v : Value} (h : Denotes display codec bytes v) :
    scalar display bytes codec = some (v, .valid) := by
  cases h with
  | boolean b =>
    have hcons : scalar display [UInt8.ofNat (1 * 16 + b.toNat)] .scalar =
        tagValue display [UInt8.ofNat (1 * 16 + b.toNat)] .scalar 1 b.toNat :=
      scalar_cons display (by decide) (by cases b <;> decide) .scalar (by decide)
    refine hcons.trans ?_
    cases b <;> rfl
  | unsigned hone height =>
    rw [scalar_tagged display (by decide) (by decide) (by intro h; cases h) (by omega),
      content_integer display (.inl rfl) hone height, if_neg (by decide)]
  | signed hone height =>
    rw [scalar_tagged display (by decide) (by decide) (by intro h; cases h) (by omega),
      content_integer display (.inr rfl) hone height, if_pos rfl]
  | real hfour hfinite htext =>
    rw [scalar_tagged display (by decide) (by decide) (by intro h; cases h) (by omega),
      content_float display (.inl ⟨rfl, hfour, rfl⟩), (real_eq_valid display).2 ⟨hfinite, _, htext, rfl⟩]
  | double height hfinite htext =>
    rw [scalar_tagged display (by decide) (by decide) (by intro h; cases h) (by omega),
      content_float display (.inr ⟨rfl, height, rfl⟩), (real_eq_valid display).2 ⟨hfinite, _, htext, rfl⟩]
  | text hbound =>
    rw [scalar_tagged display (by decide) (by decide) (by intro h; cases h) (by rw [List.length_cons]; omega),
      content_text]
    rfl
  | exact d =>
    have hsize := length_decimal_le d
    unfold maxDecimalLen at hsize
    rw [scalar_tagged display (by decide) (by decide) (fun _ => rfl) (by rw [List.length_cons]; omega), content_text]
    exact congrArg some (decimal_eq_valid.2 ⟨d, rfl, rfl⟩)

/-- What the decoder reads as valid is denoted. -/
theorem denotes_of_scalar {codec : Codec} {bytes : List UInt8} {v : Value}
    (h : scalar display bytes codec = some (v, .valid)) : Denotes display codec bytes v := by
  rcases scalar_eq_valid display h with ⟨b, rfl, rfl, rfl⟩ | ⟨tag, body, hone, hcodec, rfl, hsize, hcontent⟩
  · exact .boolean b
  have hplain : tag ≠ 7 → codec = .scalar := by
    intro hne
    cases codec with
    | scalar => rfl
    | exactDecimalText => exact absurd (hcodec rfl) hne
  rcases content_eq_valid display hcontent with ⟨htag, hlow, hhigh⟩ | ⟨rfl, hfour⟩ | ⟨rfl, height⟩ | ⟨text, rfl, rfl⟩
  · rw [content_integer display htag hlow hhigh] at hcontent
    obtain ⟨rfl, -⟩ := Prod.mk.inj (Option.some.inj hcontent)
    rw [hplain (by omega)]
    rcases htag with rfl | rfl
    · rw [if_neg (by decide)]
      exact .unsigned hlow hhigh
    · rw [if_pos rfl]
      exact .signed hlow hhigh
  · rw [content_float display (.inl ⟨rfl, hfour, rfl⟩)] at hcontent
    obtain ⟨hfinite, d, htext, rfl⟩ := (real_eq_valid display).1 (Option.some.inj hcontent)
    rw [hplain (by decide)]
    exact .real hfour hfinite htext
  · rw [content_float display (.inr ⟨rfl, height, rfl⟩)] at hcontent
    obtain ⟨hfinite, d, htext, rfl⟩ := (real_eq_valid display).1 (Option.some.inj hcontent)
    rw [hplain (by decide)]
    exact .double height hfinite htext
  · rw [content_text] at hcontent
    have hbound := length_body_le hsize
    rw [List.length_cons] at hbound
    cases codec with
    | scalar =>
      obtain ⟨rfl, -⟩ := Prod.mk.inj (Option.some.inj hcontent)
      exact .text (by omega)
    | exactDecimalText =>
      obtain ⟨d, rfl, rfl⟩ := decimal_eq_valid.1 (Option.some.inj hcontent)
      exact .exact d

theorem Denotes.canonical {codec : Codec} {bytes : List UInt8} {v : Value} (h : Denotes display codec bytes v) :
    Canonical bytes := by
  cases h with
  | boolean b => exact .boolean b
  | unsigned hone height => exact .integer (.inl rfl) hone height
  | signed hone height => exact .integer (.inr rfl) hone height
  | real hfour hfinite _ => exact .real hfour hfinite
  | double height hfinite _ => exact .double height hfinite
  | text hbound => exact .text hbound
  | exact d =>
    have hsize := length_decimal_le d
    unfold maxDecimalLen at hsize
    exact .text (by omega)

/-- The decoder ends on all bytes without an index out of range, its valid values are exactly the denoted ones, and these
stand in canonical encodings only. -/
theorem scalar_exact (bytes : List UInt8) (codec : Codec) :
    (∃ r, scalar display bytes codec = some r) ∧
      (∀ v, scalar display bytes codec = some (v, .valid) ↔ Denotes display codec bytes v) ∧
      ∀ v, scalar display bytes codec = some (v, .valid) → Canonical bytes :=
  ⟨scalar_total display bytes codec, fun _ => ⟨denotes_of_scalar display, scalar_of_denotes display⟩,
    fun _ h => (denotes_of_scalar display h).canonical⟩

/-- A double whose rendering is too long for an exact decimal is refused. -/
theorem double_too_long {body : List UInt8} (height : body.length = 8) (hzero : binary64.isZero (unsigned body) = false)
    (hlong : maxDecimalLen < (display binary64 (unsigned body)).utf8ByteSize) (v : Value) :
    scalar display (tagged 5 body) .scalar ≠ some (v, .valid) := by
  intro hv
  rw [scalar_tagged display (by decide) (by decide) (by intro h; cases h) (by omega),
    content_float display (.inr ⟨rfl, height, rfl⟩)] at hv
  obtain ⟨-, d, htext, -⟩ := (real_eq_valid display).1 (Option.some.inj hv)
  have hsize := d.valid.2.1
  unfold lexical at htext
  rw [hzero, if_neg (by rintro ⟨h, -⟩; cases h)] at htext
  rw [htext] at hsize
  omega

end Exact

/-- A boolean is canonical, and the codec of exact decimal text does not take it; `2 ^ 216` is a finite double whose
rendering is too long for an exact decimal. -/
theorem scalar_not_canonical :
    (¬ ∀ bytes, (∃ v, scalar (fun _ _ => "0") bytes .exactDecimalText = some (v, .valid)) ↔ Canonical bytes) ∧
      ¬ ∀ bytes, (∃ v, scalar (fun _ _ =>
        "105312291668557190000000000000000000000000000000000000000000000000") bytes .scalar = some (v, .valid)) ↔
          Canonical bytes := by
  constructor
  · intro h
    obtain ⟨v, hv⟩ := (h [17]).2 (.boolean true)
    have hunknown : scalar (fun _ _ => "0") [17] .exactDecimalText =
        some (unknown "exact decimal text profile requires CharacterString") := rfl
    rw [hunknown] at hv
    cases hv
  · intro h
    have hfinite : binary64.isFinite (unsigned [77, 112, 0, 0, 0, 0, 0, 0]) = true := by decide +kernel
    obtain ⟨v, hv⟩ := (h (tagged 5 [77, 112, 0, 0, 0, 0, 0, 0])).2 (.double rfl hfinite)
    exact double_too_long _ rfl (by decide +kernel) (by decide) v hv

end Verdant.Observation.Normalize
