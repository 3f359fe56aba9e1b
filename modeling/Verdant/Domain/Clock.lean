import Verdant.Domain.Json

/-!
# Clock identities

A monotonic mark is a boot identity with the nanoseconds since that boot: marks of different boots are incomparable.
Wall times are nanoseconds since the Unix epoch.
-/

namespace Verdant

open Json

/-- Identified boot context of monotonic marks. -/
structure BootId where
  text : String
  valid : IsId text

theorem BootId.ext_text {a b : BootId} (h : a.text = b.text) : a = b := by
  cases a
  cases b
  cases h
  rfl

instance : DecidableEq BootId := fun _ _ => decidable_of_iff _ ⟨BootId.ext_text, congrArg BootId.text⟩

def BootId.parse (raw : String) : Except DomainError BootId := parseId "boot-id" raw .mk

/-- Portable monotonic mark; the nanoseconds are a `u64`. -/
structure MonotonicMark where
  boot : BootId
  nanosSinceBoot : Nat
  deriving DecidableEq

/-- The elapsed nanoseconds from `earlier`, on one boot and in order. -/
def MonotonicMark.elapsedSince (mark earlier : MonotonicMark) : Option Nat :=
  if mark.boot ≠ earlier.boot then none
  else if mark.nanosSinceBoot < earlier.nanosSinceBoot then none
  else some (mark.nanosSinceBoot - earlier.nanosSinceBoot)

def MonotonicMark.toJson (mark : MonotonicMark) : String :=
  "\x7b\"boot\":" ++ quote mark.boot.text ++ ",\"nanos_since_boot\":" ++ quote (Nat.repr mark.nanosSinceBoot) ++ "\x7d"

def MonotonicMark.fromJson (text : String) : Except DomainError MonotonicMark := do
  let fields ← parseObject text
  rejectUnknown fields ["boot", "nanos_since_boot"]
  let boot ← getString fields "boot"
  let nanos ← getString fields "nanos_since_boot"
  let boot ← BootId.parse boot
  match parseU64 nanos with
  | some n => .ok ⟨boot, n⟩
  | none => .error (.invalidValue "nanos-since-boot" nanos)

/-- Nanoseconds since the Unix epoch. -/
abbrev SystemTime := Int

def inI64 (n : Int) : Bool := -2 ^ 63 ≤ n ∧ n < 2 ^ 63

/-- The order of marks of one boot. -/
theorem MonotonicMark.elapsedSince_isSome {mark earlier : MonotonicMark} :
    (mark.elapsedSince earlier).isSome = true ↔
      mark.boot = earlier.boot ∧ earlier.nanosSinceBoot ≤ mark.nanosSinceBoot := by
  unfold MonotonicMark.elapsedSince
  by_cases hboot : mark.boot = earlier.boot
  · by_cases hlt : mark.nanosSinceBoot < earlier.nanosSinceBoot
    · simp [hboot, hlt]
    · simp [hboot, hlt]
      omega
  · simp [hboot]

end Verdant
