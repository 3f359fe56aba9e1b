import Verdant.Library.Text

/-!
# Lines of a stream

`cut` splits a stream into its complete lines and the partial line after the last separator.  A stream that arrives in
chunks is cut chunk by chunk: `cut_append` says that the partial line of what has come and the next chunk together give
the lines the whole stream gives.  A text is a stream of UTF-8 bytes; an ASCII character is a byte of a text exactly
when it is one of its characters.
-/

namespace Lines

variable {α : Type} [DecidableEq α]

/-- The complete lines of a stream, without their separators, and what comes after the last one. -/
def cut (sep : α) : List α → List (List α) × List α
  | [] => ([], [])
  | a :: as =>
    let (lines, rest) := cut sep as
    if a = sep then ([] :: lines, rest)
    else match lines with
      | [] => ([], a :: rest)
      | line :: lines => ((a :: line) :: lines, rest)

@[simp]
theorem cut_nil (sep : α) : cut sep [] = ([], []) := rfl

@[simp]
theorem cut_sep (sep : α) (as : List α) : cut sep (sep :: as) = ([] :: (cut sep as).1, (cut sep as).2) := by
  simp [cut]

theorem cut_cons_of_ne {sep a : α} (h : a ≠ sep) (as : List α) :
    cut sep (a :: as) = match (cut sep as).1 with
      | [] => ([], a :: (cut sep as).2)
      | line :: lines => ((a :: line) :: lines, (cut sep as).2) := by
  simp only [cut, if_neg h]

/-- A text without separator is a partial line. -/
theorem cut_unended {sep : α} {as : List α} (h : sep ∉ as) : cut sep as = ([], as) := by
  induction as with
  | nil => rfl
  | cons a as ih =>
    simp only [List.mem_cons, not_or] at h
    rw [cut_cons_of_ne (Ne.symm h.1), ih h.2]

/-- A line without separator is the first line of what it starts. -/
theorem cut_line {sep : α} {line : List α} (h : sep ∉ line) (as : List α) :
    cut sep (line ++ sep :: as) = (line :: (cut sep as).1, (cut sep as).2) := by
  induction line with
  | nil => exact cut_sep sep as
  | cons a line ih =>
    simp only [List.mem_cons, not_or] at h
    rw [List.cons_append, cut_cons_of_ne (Ne.symm h.1), ih h.2]

theorem not_mem_rest (sep : α) (as : List α) : sep ∉ (cut sep as).2 := by
  induction as with
  | nil => simp
  | cons a as ih =>
    by_cases ha : a = sep
    · rw [ha, cut_sep]
      exact ih
    · rw [cut_cons_of_ne ha]
      cases hlines : (cut sep as).1 with
      | nil =>
        simp only [List.mem_cons, not_or]
        exact ⟨Ne.symm ha, ih⟩
      | cons line lines => exact ih

/-- Cutting what has come and then the rest with the next chunk is cutting the whole. -/
theorem cut_append (sep : α) (as bs : List α) :
    cut sep (as ++ bs) = ((cut sep as).1 ++ (cut sep ((cut sep as).2 ++ bs)).1, (cut sep ((cut sep as).2 ++ bs)).2) := by
  induction as with
  | nil => simp
  | cons a as ih =>
    by_cases ha : a = sep
    · rw [ha, List.cons_append, cut_sep, cut_sep, ih]
      rfl
    · rw [List.cons_append, cut_cons_of_ne ha, cut_cons_of_ne ha, ih]
      cases hlines : (cut sep as).1 with
      | nil =>
        -- `a` joins the partial line, in front of the next chunk
        simp only [List.nil_append, List.cons_append]
        rw [cut_cons_of_ne ha]
      | cons line lines => rfl

/-- The stream of complete lines. -/
def unlines {α : Type} (sep : α) (lines : List (List α)) : List α := lines.flatMap fun line => line ++ [sep]

@[simp]
theorem unlines_nil {α : Type} (sep : α) : unlines sep [] = [] := rfl

@[simp]
theorem unlines_cons {α : Type} (sep : α) (line : List α) (lines : List (List α)) :
    unlines sep (line :: lines) = line ++ sep :: unlines sep lines := by
  simp [unlines]

theorem cut_unlines {sep : α} {lines : List (List α)} (h : ∀ line ∈ lines, sep ∉ line) :
    cut sep (unlines sep lines) = (lines, []) := by
  induction lines with
  | nil => rfl
  | cons line lines ih =>
    rw [unlines_cons, cut_line (h line List.mem_cons_self), ih fun l hl => h l (List.mem_cons_of_mem _ hl)]

theorem count_unlines {sep : α} {lines : List (List α)} (h : ∀ line ∈ lines, sep ∉ line) :
    (unlines sep lines).count sep = lines.length := by
  induction lines with
  | nil => rfl
  | cons line lines ih =>
    have hhead := List.count_eq_zero.2 (h line List.mem_cons_self)
    have htail := ih fun l hl => h l (List.mem_cons_of_mem _ hl)
    rw [unlines_cons, List.count_append, List.count_cons_self, hhead, htail, List.length_cons]
    omega

/-- A stream without complete lines has no separator. -/
theorem not_mem_of_no_lines {sep : α} {as : List α} (h : (cut sep as).1 = []) : sep ∉ as := by
  induction as with
  | nil => simp
  | cons a as ih =>
    by_cases ha : a = sep
    · rw [ha, cut_sep] at h
      exact nomatch h
    · rw [cut_cons_of_ne ha] at h
      cases hlines : (cut sep as).1 with
      | nil =>
        simp only [List.mem_cons, not_or]
        exact ⟨Ne.symm ha, ih hlines⟩
      | cons line lines =>
        rw [hlines] at h
        exact nomatch h

theorem cut_suffix (sep : α) (as : List α) : (cut sep as).2 <:+ as := by
  induction as with
  | nil => exact List.suffix_rfl
  | cons a as ih =>
    by_cases ha : a = sep
    · rw [ha, cut_sep]
      exact ih.trans (List.suffix_cons sep as)
    · rw [cut_cons_of_ne ha]
      cases hlines : (cut sep as).1 with
      | nil =>
        -- without a complete line the whole stream is the partial line
        have hrest : (cut sep as).2 = as := congrArg Prod.snd (cut_unended (not_mem_of_no_lines hlines))
        exact hrest.symm ▸ List.suffix_rfl
      | cons line lines => exact ih.trans (List.suffix_cons a as)

/-- When all lines of a stream that ends in a separator have come, nothing of it is left. -/
theorem all_come {sep : α} {come left : List α} (hwhole : (cut sep (come ++ left)).2 = [])
    (hlines : (cut sep (come ++ left)).1.length ≤ (cut sep come).1.length) : left = [] := by
  rw [cut_append] at hwhole hlines
  simp only [List.length_append] at hwhole hlines
  have hnone : (cut sep ((cut sep come).2 ++ left)).1 = [] := by
    apply List.length_eq_zero_iff.1
    omega
  rw [cut_unended (not_mem_of_no_lines hnone)] at hwhole
  exact (List.append_eq_nil_iff.1 hwhole).2

end Lines

/-! ### Bytes of a text -/

namespace TextCodec

/-- The UTF-8 bytes of a text. -/
def utf8Bytes (s : String) : List UInt8 := s.toByteArray.data.toList

def readUtf8 (bytes : List UInt8) : Option String := String.fromUTF8? ⟨bytes.toArray⟩

@[simp]
theorem readUtf8_utf8Bytes (s : String) : readUtf8 (utf8Bytes s) = some s := by
  have hbytes : (⟨s.toByteArray.data.toList.toArray⟩ : ByteArray) = s.toByteArray := by simp
  unfold readUtf8 utf8Bytes String.fromUTF8?
  rw [hbytes, dif_pos s.isValidUTF8]
  rfl

theorem utf8Bytes_eq (s : String) : utf8Bytes s = s.toList.flatMap String.utf8EncodeChar := by
  have hencode : s.toByteArray = s.toList.utf8Encode := by
    conv_lhs => rw [← String.ofList_toList (s := s)]
    rfl
  unfold utf8Bytes
  rw [hencode, List.utf8Encode]
  simp

@[simp]
theorem utf8Bytes_append (a b : String) : utf8Bytes (a ++ b) = utf8Bytes a ++ utf8Bytes b := by
  simp [utf8Bytes_eq]

/-- Every byte of a character above ASCII has its high bit set. -/
theorem mem_utf8EncodeChar {b : UInt8} (hb : b.toNat < 128) {c : Char} :
    b ∈ String.utf8EncodeChar c ↔ c.toNat = b.toNat := by
  have hval : c.val.toNat = c.toNat := rfl
  have hmax : c.toNat < 0x110000 := by
    have := c.valid
    simp only [UInt32.isValidChar, Nat.isValidChar, hval] at this
    omega
  constructor
  · intro h
    unfold String.utf8EncodeChar at h
    simp only [hval] at h
    split_ifs at h
    all_goals
      simp only [List.mem_cons, List.not_mem_nil, or_false] at h
      rcases h with rfl | rfl | rfl | rfl <;> simp only [UInt8.toNat_ofNat'] at hb ⊢ <;> omega
  · intro h
    unfold String.utf8EncodeChar
    simp only [hval]
    rw [if_pos (by omega), List.mem_singleton]
    apply UInt8.toNat_inj.1
    rw [UInt8.toNat_ofNat', h]
    omega

theorem mem_utf8Bytes {b : UInt8} (hb : b.toNat < 128) {s : String} :
    b ∈ utf8Bytes s ↔ Char.ofNat b.toNat ∈ s.toList := by
  rw [utf8Bytes_eq, List.mem_flatMap]
  constructor
  · rintro ⟨c, hc, hmem⟩
    rw [mem_utf8EncodeChar hb] at hmem
    rw [← hmem, Char.ofNat_toNat]
    exact hc
  · intro h
    exact ⟨_, h, (mem_utf8EncodeChar hb).2 (toNat_ofNat_ascii hb)⟩

end TextCodec
