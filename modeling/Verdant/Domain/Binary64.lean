import Verdant.Library.Text

/-!
# Binary floating point values

A finite `f64` is the rational number it stands for; the sign of zero is not kept.  `toBinary32` is the conversion
`as f32`, to the nearest value with ties to even, with its bits, and `fixed4` is the text `{:.4}`.
-/

namespace Verdant

inductive Binary64 where
  | finite (value : Rat)
  | infinite (negative : Bool)
  | nan
  deriving DecidableEq

/-- The nearest integer, ties to even. -/
def roundEven (q : Rat) : Int :=
  let floor := q.floor
  if q - floor < 1 / 2 then floor
  else if 1 / 2 < q - floor then floor + 1
  else floor + floor % 2

/-- The exponent of the binade of a nonzero rational: `2 ^ e ≤ |q| < 2 ^ (e + 1)`. -/
def binade (q : Rat) : Int :=
  let n := q.num.natAbs
  let e : Int := (n.log2 : Int) - (q.den.log2 : Int)
  -- the quotient of the leading powers of two is off by at most one
  if q.den * 2 ^ e.toNat ≤ n * 2 ^ (-e).toNat then e else e - 1

/-- The bits of the `f32` nearest to a rational, infinity beyond the largest. -/
def binary32Bits (q : Rat) : Nat :=
  if q = 0 then 0
  else
    let e := max (binade q) (-126)
    let scaled : Rat := mkRat (q.num.natAbs * 2 ^ (23 - e).toNat) (q.den * 2 ^ (e - 23).toNat)
    -- a significand that rounds up to `2 ^ 24` carries into the exponent
    let magnitude := (e + 126).toNat * 2 ^ 23 + (roundEven scaled).toNat
    min magnitude 0x7F800000 + if q < 0 then 2 ^ 31 else 0

/-- The rational a finite `f32` stands for. -/
def binary32Value (bits : Nat) : Rat :=
  let fraction : Nat := bits % 2 ^ 23
  let exponent : Nat := bits / 2 ^ 23 % 2 ^ 8
  let magnitude : Rat :=
    if exponent = 0 then mkRat fraction (2 ^ 149)
    else mkRat ((2 ^ 23 + fraction) * 2 ^ (exponent - 150)) (2 ^ (150 - exponent))
  if bits / 2 ^ 31 = 1 then -magnitude else magnitude

namespace Binary64

def isFinite : Binary64 → Bool
  | finite _ => true
  | _ => false

/-- `x as f32` and `to_bits`. -/
def toBinary32 : Binary64 → UInt32
  | finite q => UInt32.ofNat (binary32Bits q)
  | infinite negative => if negative then 0xFF800000 else 0x7F800000
  | nan => 0x7FC00000

/-- `f64::from` of the `f32` with these bits. -/
def ofBinary32 (bits : UInt32) : Binary64 :=
  let n := bits.toNat
  if n / 2 ^ 23 % 2 ^ 8 = 255 then
    if n % 2 ^ 23 = 0 then infinite (n / 2 ^ 31 = 1) else nan
  else finite (binary32Value n)

/-- Membership in a closed range with finite ends. -/
def within (low high : Rat) : Binary64 → Bool
  | finite q => low ≤ q ∧ q ≤ high
  | _ => false

/-- Whether a value exceeds a finite bound. -/
def exceeds (bound : Rat) : Binary64 → Bool
  | finite q => bound < q
  | infinite negative => !negative
  | nan => false

/-- `(a - b).abs()`; exact where the difference is, which holds for values within a factor of two. -/
def distance : Binary64 → Binary64 → Binary64
  | finite a, finite b => finite (if a ≤ b then b - a else a - b)
  | infinite a, infinite b => if a = b then nan else infinite false
  | nan, _ => nan
  | _, nan => nan
  | _, _ => infinite false

/-- The text `{:.4}`. -/
def fixed4 : Binary64 → String
  | finite q =>
    let scaled := (roundEven (q * 10000)).natAbs
    let fraction := Nat.repr (scaled % 10000)
    (if q < 0 then "-" else "") ++ Nat.repr (scaled / 10000) ++ "." ++
      String.ofList (List.replicate (4 - fraction.length) '0') ++ fraction
  | infinite negative => if negative then "-inf" else "inf"
  | nan => "NaN"

end Binary64

end Verdant
