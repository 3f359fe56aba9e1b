import Verdant.Domain.Json
import Verdant.Library.Result

/-!
# String literals

`quote` and the string reader are inverse: reading a quoted text gives the text back and stops after its closing quote.
A quoted text has no control character.
-/

namespace Verdant.Json

open TextCodec

/-- The characters of a string literal between its quotes. -/
def quotedChars (cs : List Char) : List Char := cs.flatMap fun c => (quoteChar c).toList

@[simp] theorem quotedChars_nil : quotedChars [] = [] := rfl

@[simp] theorem quotedChars_cons (c : Char) (cs : List Char) :
    quotedChars (c :: cs) = (quoteChar c).toList ++ quotedChars cs := rfl

theorem toList_quote (raw : String) : (quote raw).toList = '"' :: (quotedChars raw.toList ++ ['"']) := by
  simp [quote, quotedChars, String.toList_join, List.flatMap_map]

private theorem toList_hex4 : ∀ n < 32, (hex4 n).toList = ['0', '0', Nat.digitChar (n / 16), Nat.digitChar (n % 16)] := by
  decide

private theorem digitChar_value : ∀ n < 32, hexDigitValue (Nat.digitChar (n / 16)) = some (n / 16) ∧
    hexDigitValue (Nat.digitChar (n % 16)) = some (n % 16) ∧ Nat.digitChar (n / 16) ≠ '"' ∧ Nat.digitChar (n % 16) ≠ '"' ∧
    Nat.digitChar (n / 16) ≠ '\\' ∧ Nat.digitChar (n % 16) ≠ '\\' := by
  decide

/-- How one character is written: as it is, or as an escape. -/
theorem quoteChar_cases (c : Char) :
    ((quoteChar c).toList = [c] ∧ c ≠ '"' ∧ c ≠ '\\' ∧ ¬ c.toNat < 0x20) ∨
      ∃ escape, (quoteChar c).toList = '\\' :: escape ∧ (∀ rest, parseEscape (escape ++ rest) = .ok (c, rest)) ∧
        ∃ first more, escape = first :: more ∧ '"' ∉ more ∧ '\\' ∉ more := by
  by_cases hquote : c = '"'
  · subst hquote
    exact .inr ⟨['"'], rfl, fun rest => rfl, '"', [], rfl, by simp, by simp⟩
  by_cases hback : c = '\\'
  · subst hback
    exact .inr ⟨['\\'], rfl, fun rest => rfl, '\\', [], rfl, by simp, by simp⟩
  by_cases hcontrol : c.toNat < 0x20
  · right
    by_cases hn : c = '\n'
    · subst hn
      exact ⟨['n'], rfl, fun rest => rfl, 'n', [], rfl, by simp, by simp⟩
    by_cases hr : c = '\r'
    · subst hr
      exact ⟨['r'], rfl, fun rest => rfl, 'r', [], rfl, by simp, by simp⟩
    by_cases ht : c = '\t'
    · subst ht
      exact ⟨['t'], rfl, fun rest => rfl, 't', [], rfl, by simp, by simp⟩
    -- the other control characters are written with four hexadecimal digits
    obtain ⟨hhigh, hlow, hq₁, hq₂, hb₁, hb₂⟩ := digitChar_value c.toNat hcontrol
    have htext : (quoteChar c).toList =
        '\\' :: 'u' :: ['0', '0', Nat.digitChar (c.toNat / 16), Nat.digitChar (c.toNat % 16)] := by
      simp [quoteChar, hquote, hback, hn, hr, ht, hcontrol, toList_hex4 c.toNat hcontrol]
    refine ⟨_, htext, fun rest => ?_, 'u', _, rfl, ?_, ?_⟩
    · have hzero : hexDigitValue '0' = some 0 := by decide
      have hcode : c.toNat / 16 * 16 + c.toNat % 16 = c.toNat := by omega
      have hplain : ¬ (0xD800 ≤ c.toNat ∧ c.toNat < 0xE000) := by omega
      simp only [List.cons_append, List.nil_append, parseEscape, parseHex4, hzero, hhigh, hlow, Nat.zero_mul,
        Nat.zero_add, hcode, Result.ok_bind, if_neg hplain, Char.ofNat_toNat]
    · simp [hq₁.symm, hq₂.symm]
    · simp [hb₁.symm, hb₂.symm]
  · left
    have hn : c ≠ '\n' := by rintro rfl; exact hcontrol (by decide)
    have hr : c ≠ '\r' := by rintro rfl; exact hcontrol (by decide)
    have ht : c ≠ '\t' := by rintro rfl; exact hcontrol (by decide)
    refine ⟨?_, hquote, hback, hcontrol⟩
    simp [quoteChar, hquote, hback, hn, hr, ht, hcontrol]

theorem parseStringBody_quotedChars (cs rest out : List Char) (fuel : Nat)
    (hfuel : (quotedChars cs).length < fuel) :
    parseStringBody fuel (quotedChars cs ++ '"' :: rest) out = .ok (String.ofList (out.reverse ++ cs), rest) := by
  induction cs generalizing out fuel with
  | nil =>
    obtain ⟨fuel, rfl⟩ : ∃ n, fuel = n + 1 := ⟨fuel - 1, by omega⟩
    simp [parseStringBody]
  | cons c cs ih =>
    obtain ⟨fuel, rfl⟩ : ∃ n, fuel = n + 1 := ⟨fuel - 1, by omega⟩
    rw [quotedChars_cons, List.length_append] at hfuel
    rw [quotedChars_cons, List.append_assoc]
    rcases quoteChar_cases c with ⟨hplain, hquote, hback, hcontrol⟩ | ⟨escape, hescape, hparse, -⟩
    · rw [hplain] at hfuel ⊢
      have hrest := ih (c :: out) fuel (by simp at hfuel; omega)
      simp only [List.singleton_append, parseStringBody, if_neg hquote, if_neg hback, if_neg hcontrol, hrest,
        List.reverse_cons, List.append_assoc]
    · rw [hescape] at hfuel ⊢
      have hrest := ih (c :: out) fuel (by simp at hfuel; omega)
      rw [List.cons_append, parseStringBody, if_neg (by decide), if_pos rfl, hparse, Result.ok_bind]
      refine hrest.trans ?_
      simp

theorem parseString_quote (raw : String) (rest : List Char) :
    parseString ((quote raw).toList ++ rest) = .ok (raw, rest) := by
  rw [toList_quote, List.cons_append, List.append_assoc, List.singleton_append]
  have hbody := parseStringBody_quotedChars raw.toList rest []
    ((quotedChars raw.toList ++ '"' :: rest).length + 1) (by rw [List.length_append]; omega)
  rw [List.reverse_nil, List.nil_append, String.ofList_toList] at hbody
  exact hbody

theorem head_quote (raw : String) (rest : List Char) : ((quote raw).toList ++ rest).head? = some '"' := by
  rw [toList_quote]
  rfl

theorem skipWs_quote (raw : String) (rest : List Char) :
    skipWs ((quote raw).toList ++ rest) = (quote raw).toList ++ rest := by
  rw [toList_quote]
  rfl

theorem le_of_mem_quoteChar {c d : Char} (h : d ∈ (quoteChar c).toList) : 0x20 ≤ d.toNat := by
  have hdigits : ∀ n < 32, ((hex4 n).toList.all fun d => decide (0x20 ≤ d.toNat)) = true := by decide
  have hescape : ∀ l : List Char, (l.all fun d => decide (0x20 ≤ d.toNat)) = true → d ∈ l → 0x20 ≤ d.toNat :=
    fun l hl hd => forall_mem_of_all hl d hd
  unfold quoteChar at h
  split_ifs at h with h1 h2 h3 h4 h5 h6
  · exact hescape _ (by decide) h
  · exact hescape _ (by decide) h
  · exact hescape _ (by decide) h
  · exact hescape _ (by decide) h
  · exact hescape _ (by decide) h
  · rw [String.toList_append, List.mem_append] at h
    rcases h with h | h
    · exact hescape _ (by decide) h
    · exact hescape _ (hdigits c.toNat h6) h
  · rw [String.toList_singleton, List.mem_singleton] at h
    rw [h]
    exact Nat.le_of_not_lt h6

/-- No control character is left in a quoted text. -/
theorem le_of_mem_quote {raw : String} {d : Char} (h : d ∈ (quote raw).toList) : 0x20 ≤ d.toNat := by
  have hmark : 0x20 ≤ '"'.toNat := by decide
  rw [toList_quote, List.mem_cons, List.mem_append, List.mem_singleton] at h
  rcases h with rfl | h | rfl
  · exact hmark
  · obtain ⟨c, -, hd⟩ := List.mem_flatMap.1 h
    exact le_of_mem_quoteChar hd
  · exact hmark

end Verdant.Json
