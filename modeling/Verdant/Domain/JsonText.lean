import Verdant.Domain.ValueText

/-!
# Text values

The encoding of a text value reads back, and its size is bounded by the size of the text.
-/

namespace Verdant.Json

open TextCodec

/-- The frozen encoding of a text reads back as that text. -/
theorem fromJson_text (raw : String) :
    Value.fromJson ("\x7b\"type\":\"text\",\"value\":" ++ quote raw ++ "\x7d") = .ok (.text raw) :=
  Value.fromJson_toJson (v := .text raw) trivial

/-! ### Sizes -/

theorem size_quoteChar_le (c : Char) : (quoteChar c).utf8ByteSize ≤ 6 * c.utf8Size := by
  have hpos := c.utf8Size_pos
  have hescape : ∀ n < 32, ("\\u" ++ hex4 n).utf8ByteSize = 6 := by decide
  have hshort : ("\\\"" : String).utf8ByteSize = 2 ∧ ("\\\\" : String).utf8ByteSize = 2 ∧ ("\\n" : String).utf8ByteSize = 2 ∧
      ("\\r" : String).utf8ByteSize = 2 ∧ ("\\t" : String).utf8ByteSize = 2 := by decide
  unfold quoteChar
  split_ifs with h1 h2 h3 h4 h5 h6
  · omega
  · omega
  · omega
  · omega
  · omega
  · rw [hescape c.toNat h6]
    omega
  · rw [String.utf8ByteSize_singleton]
    omega

theorem size_quote_le (raw : String) : (quote raw).utf8ByteSize ≤ 6 * raw.utf8ByteSize + 2 := by
  have hgo : ∀ cs : List Char, ((quotedChars cs).map Char.utf8Size).sum ≤ 6 * (cs.map Char.utf8Size).sum := by
    intro cs
    induction cs with
    | nil => simp
    | cons c cs ih =>
      have hc := size_quoteChar_le c
      rw [utf8ByteSize_eq] at hc
      simp only [quotedChars_cons, List.map_append, List.sum_append, List.map_cons, List.sum_cons]
      omega
  have hquote : ('"' : Char).utf8Size = 1 := by decide
  have hbody := hgo raw.toList
  rw [← utf8ByteSize_eq] at hbody
  rw [utf8ByteSize_eq, toList_quote]
  simp only [List.map_cons, List.map_append, List.map_nil, List.sum_cons, List.sum_append, List.sum_nil, hquote]
  omega

theorem size_toJson_le (raw : String) : (Value.text raw).toJson.utf8ByteSize ≤ 6 * raw.utf8ByteSize + 40 := by
  have hquote := size_quote_le raw
  have htext : (Value.text raw).toJson = "\x7b\"type\":\"text\",\"value\":" ++ quote raw ++ "\x7d" := rfl
  have hfront : ("\x7b\"type\":\"text\",\"value\":" : String).utf8ByteSize = 23 := by decide
  have hback : ("\x7d" : String).utf8ByteSize = 1 := by decide
  rw [htext, String.utf8ByteSize_append, String.utf8ByteSize_append, hfront, hback]
  omega

/-- No character gets shorter. -/
theorem le_size_quoteChar (c : Char) : c.utf8Size ≤ (quoteChar c).utf8ByteSize := by
  have hascii : ∀ d : Char, d.toNat < 0x20 → d.utf8Size = 1 := by
    intro d hd
    rw [Char.utf8Size_eq_one_iff, UInt32.le_iff_toNat_le]
    have hbound : (127 : UInt32).toNat = 127 := rfl
    have hval : d.val.toNat = d.toNat := rfl
    omega
  have hescape : ∀ n < 32, ("\\u" ++ hex4 n).utf8ByteSize = 6 := by decide
  unfold quoteChar
  split_ifs with h1 h2 h3 h4 h5 h6
  · rw [h1]
    decide
  · rw [h2]
    decide
  · rw [h3]
    decide
  · rw [h4]
    decide
  · rw [h5]
    decide
  · rw [hescape c.toNat h6, hascii c h6]
    omega
  · exact Nat.le_of_eq String.utf8ByteSize_singleton.symm

theorem le_size_toJson (raw : String) : raw.utf8ByteSize ≤ (Value.text raw).toJson.utf8ByteSize := by
  have hgo : ∀ cs : List Char, (cs.map Char.utf8Size).sum ≤ ((quotedChars cs).map Char.utf8Size).sum := by
    intro cs
    induction cs with
    | nil => simp
    | cons c cs ih =>
      have hc := le_size_quoteChar c
      rw [utf8ByteSize_eq (quoteChar c)] at hc
      simp only [quotedChars_cons, List.map_append, List.sum_append, List.map_cons, List.sum_cons]
      omega
  have hbody := hgo raw.toList
  have htext : (Value.text raw).toJson = "\x7b\"type\":\"text\",\"value\":" ++ quote raw ++ "\x7d" := rfl
  have hquote : (quote raw).utf8ByteSize = ((quote raw).toList.map Char.utf8Size).sum := utf8ByteSize_eq _
  rw [toList_quote] at hquote
  simp only [List.map_cons, List.map_append, List.sum_cons, List.sum_append] at hquote
  rw [htext, String.utf8ByteSize_append, String.utf8ByteSize_append, utf8ByteSize_eq raw]
  omega

/-- A text value reads back. -/
theorem fromJson_toJson (raw : String) : Value.fromJson (Value.text raw).toJson = .ok (.text raw) := fromJson_text raw

end Verdant.Json
