import Verdant.Library.Frames

/-!
# Truncated diagnostics

`truncate_text` cuts at a number of bytes, and a slice that ends inside a character panics: `none`.
-/

namespace Verdant.Storage

open TextCodec

def truncateText (raw : String) (max : Nat) : Option String :=
  if raw.utf8ByteSize ≤ max then some raw
  else (takeBytes max raw.toList).map fun (front, _) =>
    String.ofList front ++ s!"…[truncated {raw.utf8ByteSize - max} chars]"

/-- The answer begins with so many bytes of the text at most. -/
def BeginsWithin (raw : String) (max : Nat) (out : String) : Prop :=
  ∃ front : List Char, front <+: raw.toList ∧ (front.map Char.utf8Size).sum ≤ max ∧ front <+: out.toList

/-- A character of the text begins or ends at the byte. -/
def IsCharBoundary (raw : String) (n : Nat) : Prop :=
  ∃ front : List Char, front <+: raw.toList ∧ (front.map Char.utf8Size).sum = n

theorem isCharBoundary_iff {raw : String} {n : Nat} : IsCharBoundary raw n ↔ (takeBytes n raw.toList).isSome := by
  constructor
  · rintro ⟨front, ⟨rest, hraw⟩, rfl⟩
    rw [← hraw, takeBytes_append]
    rfl
  · intro h
    obtain ⟨⟨front, rest⟩, hcut⟩ := Option.isSome_iff_exists.1 h
    obtain ⟨hraw, hsize⟩ := takeBytes_eq_some hcut
    exact ⟨front, ⟨rest, hraw.symm⟩, hsize⟩

/-- Output without an envelope whose three hundredth byte is the first of two of one character. -/
def foreignOutput : String := String.ofList (List.replicate 299 'a' ++ ['é'])

end Verdant.Storage
