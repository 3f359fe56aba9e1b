import Verdant.Library.Frames
import Verdant.Library.Lines

/-!
# Slices, trimming and the lines of a text

The string functions of a systems language on lists of characters: positions are byte offsets, a slice that ends inside a
character or past the end does not exist, white space is that of Unicode, and a line ends with `\n` or `\r\n`.
-/

namespace TextCodec

/-! ### Byte offsets -/

def byteLength (cs : List Char) : Nat := (cs.map Char.utf8Size).sum

theorem byteLength_append (a b : List Char) : byteLength (a ++ b) = byteLength a + byteLength b := by
  simp [byteLength]

theorem byteLength_cons (c : Char) (cs : List Char) : byteLength (c :: cs) = c.utf8Size + byteLength cs := by
  simp [byteLength]

/-- `cs[..n]`. -/
def sliceTo (n : Nat) (cs : List Char) : Option (List Char) := (takeBytes n cs).map Prod.fst

/-- `cs[n..]`. -/
def sliceFrom (n : Nat) (cs : List Char) : Option (List Char) := (takeBytes n cs).map Prod.snd

theorem sliceTo_append (a b : List Char) : sliceTo (byteLength a) (a ++ b) = some a := by
  rw [sliceTo, byteLength, takeBytes_append]
  rfl

theorem sliceFrom_append (a b : List Char) : sliceFrom (byteLength a) (a ++ b) = some b := by
  rw [sliceFrom, byteLength, takeBytes_append]
  rfl

/-- The offset of the first such character. -/
def findByte (c : Char) : List Char → Option Nat
  | [] => none
  | d :: cs => if d = c then some 0 else (findByte c cs).map (d.utf8Size + ·)

theorem findByte_eq_none {c : Char} {cs : List Char} (h : findByte c cs = none) : c ∉ cs := by
  induction cs with
  | nil => exact List.not_mem_nil
  | cons d cs ih =>
    rw [findByte] at h
    split at h
    · exact nomatch h
    · rename_i hne
      rw [List.mem_cons, not_or]
      exact ⟨Ne.symm hne, ih (Option.map_eq_none_iff.1 h)⟩

theorem findByte_eq_some {c : Char} {cs : List Char} {n : Nat} (h : findByte c cs = some n) :
    ∃ front back, cs = front ++ c :: back ∧ c ∉ front ∧ n = byteLength front := by
  induction cs generalizing n with
  | nil => exact nomatch h
  | cons d cs ih =>
    rw [findByte] at h
    split at h
    · rename_i hsame
      obtain rfl := Option.some.inj h
      exact ⟨[], cs, by rw [hsame]; rfl, List.not_mem_nil, rfl⟩
    · rename_i hne
      obtain ⟨m, hm, rfl⟩ := Option.map_eq_some_iff.1 h
      obtain ⟨front, back, rfl, hfront, rfl⟩ := ih hm
      refine ⟨d :: front, back, rfl, ?_, (byteLength_cons d front).symm⟩
      rw [List.mem_cons, not_or]
      exact ⟨Ne.symm hne, hfront⟩

theorem findByte_append {c : Char} {front : List Char} (h : c ∉ front) (back : List Char) :
    findByte c (front ++ c :: back) = some (byteLength front) := by
  induction front with
  | nil => exact if_pos rfl
  | cons d front ih =>
    rw [List.mem_cons, not_or] at h
    rw [List.cons_append, findByte, if_neg (Ne.symm h.1), ih h.2, byteLength_cons]
    rfl

/-! ### White space -/

/-- `char::is_whitespace`. -/
def isWhitespace (c : Char) : Bool :=
  let n := c.toNat
  (9 ≤ n ∧ n ≤ 13) ∨ n = 0x20 ∨ n = 0x85 ∨ n = 0xA0 ∨ n = 0x1680 ∨ (0x2000 ≤ n ∧ n ≤ 0x200A) ∨ n = 0x2028 ∨ n = 0x2029 ∨
    n = 0x202F ∨ n = 0x205F ∨ n = 0x3000

/-- `str::trim`. -/
def trim (cs : List Char) : List Char := (cs.dropWhile isWhitespace).rdropWhile isWhitespace

/-- All white space. -/
def Blank (cs : List Char) : Prop := ∀ c ∈ cs, isWhitespace c = true

theorem dropWhile_blank_append {w : List Char} (h : Blank w) (cs : List Char) :
    (w ++ cs).dropWhile isWhitespace = cs.dropWhile isWhitespace :=
  List.dropWhile_append_of_pos h

theorem rdropWhile_append_blank {w : List Char} (h : Blank w) (cs : List Char) :
    (cs ++ w).rdropWhile isWhitespace = cs.rdropWhile isWhitespace := by
  unfold List.rdropWhile
  rw [List.reverse_append, List.dropWhile_append_of_pos]
  exact fun c hc => h c (List.mem_reverse.1 hc)

theorem trim_blank_append {w : List Char} (h : Blank w) (cs : List Char) : trim (w ++ cs) = trim cs := by
  unfold trim
  rw [dropWhile_blank_append h]

/-- Where a character stays, what is after it is trimmed on its own. -/
theorem dropWhile_append_cons {c : Char} (hc : isWhitespace c = false) (a b : List Char) :
    (a ++ c :: b).dropWhile isWhitespace = a.dropWhile isWhitespace ++ c :: b := by
  induction a with
  | nil => exact List.dropWhile_cons_of_neg (by rw [hc]; exact Bool.false_ne_true)
  | cons d a ih =>
    cases hd : isWhitespace d with
    | true =>
      rw [List.cons_append, List.dropWhile_cons_of_pos hd, List.dropWhile_cons_of_pos hd, ih]
    | false =>
      rw [List.cons_append, List.dropWhile_cons_of_neg (by simp [hd]), List.dropWhile_cons_of_neg (by simp [hd])]
      rfl

theorem rdropWhile_append_cons {c : Char} (hc : isWhitespace c = false) (a b : List Char) :
    (a ++ c :: b).rdropWhile isWhitespace = a ++ c :: b.rdropWhile isWhitespace := by
  have hflip := dropWhile_append_cons hc b.reverse a.reverse
  unfold List.rdropWhile
  rw [List.reverse_append, List.reverse_cons, List.append_assoc, List.singleton_append, hflip, List.reverse_append,
    List.reverse_cons, List.reverse_reverse, List.append_assoc, List.singleton_append]

theorem trim_eq_nil {cs : List Char} : trim cs = [] ↔ Blank cs := by
  unfold trim
  rw [List.rdropWhile_eq_nil_iff]
  constructor
  · intro h c hc
    rw [← List.takeWhile_append_dropWhile (p := isWhitespace) (l := cs)] at hc
    rcases List.mem_append.1 hc with hfront | hback
    · exact List.mem_takeWhile_imp hfront
    · exact h c hback
  · intro h c hc
    exact h c ((List.dropWhile_suffix isWhitespace).subset hc)

/-- The white space around what stays. -/
theorem exists_trim (cs : List Char) : ∃ w w', Blank w ∧ Blank w' ∧ cs = w ++ trim cs ++ w' := by
  refine ⟨cs.takeWhile isWhitespace, (cs.dropWhile isWhitespace).rtakeWhile isWhitespace, ?_, ?_, ?_⟩
  · exact fun c hc => List.mem_takeWhile_imp hc
  · exact fun c hc => List.mem_rtakeWhile_imp hc
  · rw [trim, List.append_assoc, List.rdropWhile_append_rtakeWhile, List.takeWhile_append_dropWhile]

theorem trim_append_blank {w : List Char} (h : Blank w) (cs : List Char) : trim (cs ++ w) = trim cs := by
  by_cases hcs : Blank cs
  · rw [trim_eq_nil.2 hcs, trim_eq_nil]
    intro c hc
    rcases List.mem_append.1 hc with hfront | hback
    · exact hcs c hfront
    · exact h c hback
  · have hstays : cs.dropWhile isWhitespace ≠ [] := by
      intro hnil
      exact hcs (trim_eq_nil.1 (by rw [trim, hnil]; rfl))
    unfold trim
    rw [List.dropWhile_append, if_neg (by simpa using hstays), rdropWhile_append_blank h]

theorem trim_eq_self {cs : List Char} (hfirst : ∀ c ∈ cs.head?, isWhitespace c = false)
    (hlast : ∀ c ∈ cs.getLast?, isWhitespace c = false) : trim cs = cs := by
  cases cs with
  | nil => rfl
  | cons c cs =>
    have hc := hfirst c rfl
    unfold trim
    rw [List.dropWhile_cons_of_neg (by simp [hc]), List.rdropWhile_eq_self_iff]
    intro hne hspace
    have hend := hlast _ (List.getLast?_eq_some_getLast hne)
    rw [hend] at hspace
    exact Bool.false_ne_true hspace

theorem head?_trim {cs : List Char} {c : Char} (h : (trim cs).head? = some c) : isWhitespace c = false := by
  have hprefix : trim cs <+: cs.dropWhile isWhitespace := List.rdropWhile_prefix _ _
  obtain ⟨rest, hrest⟩ := hprefix
  have hhead : (cs.dropWhile isWhitespace).head? = some c := by
    rw [← hrest, List.head?_append, h]
    rfl
  have hnot := List.head?_dropWhile_not isWhitespace cs
  rw [hhead] at hnot
  simpa using hnot

/-- Cutting at a character that stays and trimming are one. -/
theorem trim_append_cons {c : Char} (hc : isWhitespace c = false) (a b : List Char) :
    trim (a ++ c :: b) = a.dropWhile isWhitespace ++ c :: b.rdropWhile isWhitespace := by
  rw [trim, dropWhile_append_cons hc, rdropWhile_append_cons hc]

theorem trim_dropWhile (cs : List Char) : trim (cs.dropWhile isWhitespace) = trim cs := by
  have hblank : Blank (cs.takeWhile isWhitespace) := fun c hc => List.mem_takeWhile_imp hc
  conv_rhs => rw [← List.takeWhile_append_dropWhile (p := isWhitespace) (l := cs), trim_blank_append hblank]

theorem trim_rdropWhile (cs : List Char) : trim (cs.rdropWhile isWhitespace) = trim cs := by
  have hblank : Blank (cs.rtakeWhile isWhitespace) := fun c hc => List.mem_rtakeWhile_imp hc
  have hwhole : cs.rdropWhile isWhitespace ++ cs.rtakeWhile isWhitespace = cs := List.rdropWhile_append_rtakeWhile
  conv_rhs => rw [← hwhole, trim_append_blank hblank]

/-! ### Lines -/

/-- A line without the carriage return before its end. -/
def stripReturn (line : List Char) : List Char :=
  if line.getLast? = some '\r' then line.dropLast else line

/-- `str::lines`; a last line without its end keeps a carriage return. -/
def textLines (cs : List Char) : List (List Char) :=
  (Lines.cut '\n' cs).1.map stripReturn ++ (if (Lines.cut '\n' cs).2 = [] then [] else [(Lines.cut '\n' cs).2])

theorem trim_stripReturn (line : List Char) : trim (stripReturn line) = trim line := by
  unfold stripReturn
  split
  · rename_i hreturn
    obtain ⟨front, rfl⟩ := List.getLast?_eq_some_iff.1 hreturn
    have hblank : Blank ['\r'] := by
      intro c hc
      obtain rfl := List.mem_singleton.1 hc
      decide
    rw [List.dropLast_concat, trim_append_blank hblank]
  · rfl

/-- The lines that were written, each with its end. -/
theorem textLines_unlines {lines : List (List Char)} (h : ∀ line ∈ lines, '\n' ∉ line) :
    textLines (Lines.unlines '\n' lines) = lines.map stripReturn := by
  rw [textLines, Lines.cut_unlines h, if_pos rfl, List.append_nil]

end TextCodec
