import Verdant.Domain.Values
import Verdant.Library.FixedPoint
import Verdant.Observation.Record
import Verdant.Seal.Codec

/-!
# Modbus register maps

A map says how the registers of one read make one value: the order of the words and of the bytes in each, the encoding, and
an exact scale.  A map and a read carry what their constructors check.  Where the source could stop on an index or on an
overflow of `i128`, the reading has no result (`none`).
-/

namespace Verdant.Observation

inductive TransportResult where
  | valueReturned
  | remoteError (class' code : UInt32)
  | reject (reason : UInt8)
  | abort (reason : UInt8)
  | timeout
  | invalidReply
  | oversized
  | failure
  deriving DecidableEq, Repr

inductive ValueQuality where
  | valid
  | missing
  | invalid
  | nonFinite
  | unknown (detail : String)
  deriving DecidableEq, Repr

end Verdant.Observation

namespace Verdant.Modbus

open Observation

inductive ModbusError where
  | deniedDestination
  | broadcastReadNotAllowed
  | invalidUnit
  | quantity
  | address
  | map
  deriving DecidableEq, Repr

/-! ### Targets and reads -/

inductive IpAddr where
  | v4 (a b c d : UInt8)
  | v6 (segments : List UInt16)
  deriving DecidableEq, Repr

structure SocketAddr where
  ip : IpAddr
  port : UInt16
  deriving DecidableEq, Repr

structure Target where
  address : SocketAddr
  unit : UInt8
  deriving DecidableEq, Repr

/-- A peer on this host, outside the ports of the services. -/
def Target.loopback (address : SocketAddr) (unit : UInt8) : Except ModbusError Target :=
  if unit = 0 then .error .broadcastReadNotAllowed
  else if ¬ (1 ≤ unit ∧ unit ≤ 247 ∨ unit = 255) then .error .invalidUnit
  else if address.ip ≠ .v4 127 0 0 1 ∨ address.port < 1024 ∨ address.port ∈ [502, 802, 8080, 47808] then
    .error .deniedDestination
  else .ok ⟨address, unit⟩

inductive Function where
  | coils
  | discreteInputs
  | holdingRegisters
  | inputRegisters
  deriving DecidableEq, Repr

def Function.bits : Function → Bool
  | .coils | .discreteInputs => true
  | .holdingRegisters | .inputRegisters => false

def Function.limit (function : Function) : Nat := if function.bits then 2000 else 125

structure Read where
  function : Function
  address : UInt16
  quantity : UInt16
  counted : 0 < quantity.toNat ∧ quantity.toNat ≤ function.limit
  inside : address.toNat + quantity.toNat ≤ 65536
  deriving DecidableEq

def Read.new (function : Function) (address quantity : UInt16) : Except ModbusError Read :=
  if hcounted : 0 < quantity.toNat ∧ quantity.toNat ≤ function.limit then
    if hinside : address.toNat + quantity.toNat ≤ 65536 then .ok ⟨function, address, quantity, hcounted, hinside⟩
    else .error .address
  else .error .quantity

def Read.bytes (read : Read) : Nat :=
  if read.function.bits then (read.quantity.toNat + 7) / 8 else read.quantity.toNat * 2

/-- Returned words are unsigned; register bytes are big-endian words. -/
inductive Payload where
  | bits (bits : List Bool)
  | words (words : List UInt16)
  | registerBytes (bytes : List UInt8)
  deriving DecidableEq

/-! ### Maps -/

inductive ByteOrder where
  | big
  | little
  deriving DecidableEq, Repr

inductive WordOrder where
  | highFirst
  | lowFirst
  deriving DecidableEq, Repr

inductive Encoding where
  | bool
  | u16
  | i16
  | u32
  | i32
  | unsupported (token : String)
  deriving DecidableEq, Repr

/-- `(integer * numerator + offset) / 10 ^ places`. -/
structure Scale where
  numerator : Int32
  offset : Int32
  places : UInt8
  deriving DecidableEq

def Scale.identity : Scale := ⟨1, 0, 0⟩

def IsToken (token : String) : Prop :=
  token ≠ "" ∧ token.utf8ByteSize ≤ 128 ∧ token.toList.any Seal.isControl = false

instance (token : String) : Decidable (IsToken token) := by
  unfold IsToken
  infer_instance

/-- The words an encoding takes in a read. -/
def Encoding.words (encoding : Encoding) (read : Read) (scale : Scale) : Except ModbusError UInt16 :=
  match encoding with
  | .bool => if read.function.bits ∧ scale = .identity then .ok 1 else .error .map
  | .u16 | .i16 => if ¬ read.function.bits then .ok 1 else .error .map
  | .u32 | .i32 => if ¬ read.function.bits then .ok 2 else .error .map
  | .unsupported token => if token ≠ "" ∧ token.utf8ByteSize ≤ 128 then .ok read.quantity else .error .map

structure Map where
  revision : String
  sourceRole : String
  target : Target
  read : Read
  encoding : Encoding
  byteOrder : ByteOrder
  wordOrder : WordOrder
  scale : Scale
  unit : MeasureUnit
  tokens : IsToken revision ∧ IsToken sourceRole ∧ IsToken unit.asStr
  places : scale.places.toNat ≤ 9
  words : encoding.words read scale = .ok read.quantity
  deriving DecidableEq

def Map.new (revision sourceRole : String) (target : Target) (read : Read) (encoding : Encoding) (byteOrder : ByteOrder)
    (wordOrder : WordOrder) (scale : Scale) (unit : MeasureUnit) : Except ModbusError Map :=
  if htokens : IsToken revision ∧ IsToken sourceRole ∧ IsToken unit.asStr then
    if hplaces : scale.places.toNat ≤ 9 then
      match hwords : encoding.words read scale with
      | .error error => .error error
      | .ok words =>
        if hquantity : read.quantity = words then
          .ok ⟨revision, sourceRole, target, read, encoding, byteOrder, wordOrder, scale, unit, htokens, hplaces,
            by rw [hwords, hquantity]⟩
        else .error .quantity
    else .error .map
  else .error .map

/-- Every map is one that its constructor accepts. -/
theorem Map.new_self (map : Map) :
    Map.new map.revision map.sourceRole map.target map.read map.encoding map.byteOrder map.wordOrder map.scale map.unit =
      .ok map := by
  unfold Map.new
  rw [dif_pos map.tokens, dif_pos map.places]
  split
  · rename_i error herror
    rw [map.words] at herror
    exact nomatch herror
  · rename_i words hwords
    have hsame := hwords
    rw [map.words] at hsame
    obtain rfl := Except.ok.inj hsame
    rw [dif_pos rfl]

/-! ### Reading -/

/-- `i128` has no other values. -/
def checkedI128 (n : Int) : Option Int := if -2 ^ 127 ≤ n ∧ n < 2 ^ 127 then some n else none

/-- `u16::swap_bytes`. -/
def swapBytes (w : UInt16) : UInt16 := UInt16.ofNat (w.toNat % 256 * 256 + w.toNat / 256)

/-- `chunks_exact(2)` with `u16::from_be_bytes`. -/
def wordsOfBytes : List UInt8 → List UInt16
  | high :: low :: rest => UInt16.ofNat (high.toNat * 256 + low.toNat) :: wordsOfBytes rest
  | _ => []

/-- The words in order of significance. -/
def Map.significant (map : Map) (words : List UInt16) : List UInt16 :=
  let words := words.map fun w => match map.byteOrder with
    | .big => w
    | .little => swapBytes w
  match map.wordOrder with
  | .highFirst => words
  | .lowFirst => words.reverse

/-- The integer of the significant words; `none` for a word that is not there. -/
def Encoding.integer : Encoding → List UInt16 → Option Int
  | .u16, w :: _ => some w.toNat
  | .i16, w :: _ => some w.toInt16.toInt
  | .u32, high :: low :: _ => some (high.toUInt32 <<< 16 ||| low.toUInt32).toNat
  | .i32, high :: low :: _ => some (high.toUInt32 <<< 16 ||| low.toUInt32).toInt32.toInt
  | _, _ => none

def invalidShape : Value × ValueQuality := (.diagnostic (.invalid "map payload shape"), .invalid)

/-- Whether a payload is of the kind and the length of the read. -/
def Map.shape (map : Map) : Option Payload → Bool
  | some (.bits bits) => map.read.function.bits && bits.length == map.read.quantity.toNat
  | some (.words words) => !map.read.function.bits && words.length == map.read.quantity.toNat
  | some (.registerBytes bytes) => !map.read.function.bits && bytes.length == map.read.bytes
  | none => false

def Map.scaled (map : Map) (n : Int) : Option (Value × ValueQuality) := do
  let n ← checkedI128 (n * map.scale.numerator.toInt)
  let n ← checkedI128 (n + map.scale.offset.toInt)
  if map.scale.places = 0 then some (.integer n, .valid)
  else
    let divisor ← checkedI128 (10 ^ map.scale.places.toNat)
    let abs ← checkedI128 n.natAbs
    let text := (if n < 0 then "-" else "") ++ Nat.repr (abs / divisor).toNat ++ "." ++
      String.ofList (TextCodec.zeroPadded map.scale.places.toNat (abs % divisor).toNat)
    match Decimal.parse text with
    | .ok decimal => some (.decimal decimal, .valid)
    | .error _ => some invalidShape

def Map.value (map : Map) (payload : Option Payload) : Option (Value × ValueQuality) :=
  if map.shape payload = false then some invalidShape
  else match map.encoding with
    | .unsupported token => some (.diagnostic (.invalid token), .unknown token)
    | .bool =>
      match payload with
      | some (.bits [bit]) => some (.bool bit, .valid)
      | _ => some invalidShape
    | .u16 | .i16 | .u32 | .i32 =>
      let words := match payload with
        | some (.words words) => some words
        | some (.registerBytes bytes) => if bytes.length = map.read.bytes then some (wordsOfBytes bytes) else none
        | some (.bits _) | none => none
      match words with
      | none => some invalidShape
      | some words =>
        if words.length ≠ map.read.quantity.toNat then some invalidShape
        else do
          let n ← map.encoding.integer (map.significant words)
          map.scaled n

structure Mapped where
  value : Value
  unit : MeasureUnit
  map : Map
  transport : TransportResult
  quality : ValueQuality
  suitability : Suitability
  deriving DecidableEq

def MeasureUnit.isUnknown : MeasureUnit → Bool
  | .known _ => false
  | .unknown _ => true

def ValueQuality.refusal (unit : MeasureUnit) : ValueQuality → Option Refusal
  | .valid => if MeasureUnit.isUnknown unit then some .unknownUnit else none
  | .missing => some .missing
  | .invalid => some .invalid
  | .nonFinite => some .nonFinite
  | .unknown _ => some .unsupported

/-- Failures are transport evidence, never a zero word. -/
def Map.decode (map : Map) (payload : Option Payload) (transport : TransportResult) : Option Mapped := do
  let (value, quality) ← if transport ≠ .valueReturned then some (.missing, .missing) else map.value payload
  let refusal := if transport ≠ .valueReturned then some .transport else ValueQuality.refusal map.unit quality
  some ⟨value, map.unit, map, transport, quality, refusal.elim .syntheticValueOnly .refused⟩

end Verdant.Modbus
