import Verdant.Library.Text

/-!
# Delimited writings

Texts written one after another can be told apart when no written value begins another: a writing is self-delimited when
the value and what follows can be read off the text, and delimited by stops when they can once a stop follows.  A bracketed
list of delimited items is self-delimited (`selfDelimited_writeList`).
-/

namespace TextCodec

variable {α β : Type}

def SelfDelimited (write : α → List Char) : Prop := ∀ a b x y, write a ++ x = write b ++ y → a = b ∧ x = y

/-- A stop comes next. -/
def StopsAt (stops cs : List Char) : Prop := ∃ c rest, cs = c :: rest ∧ c ∈ stops

def DelimitedBy (stops : List Char) (write : α → List Char) : Prop :=
  ∀ a b x y, StopsAt stops x → StopsAt stops y → write a ++ x = write b ++ y → a = b ∧ x = y

theorem SelfDelimited.delimitedBy {write : α → List Char} (h : SelfDelimited write) (stops : List Char) :
    DelimitedBy stops write := fun a b x y _ _ heq => h a b x y heq

theorem SelfDelimited.injective {write : α → List Char} (h : SelfDelimited write) : Function.Injective write := by
  intro a b heq
  exact (h a b [] [] (congrArg (· ++ []) heq)).1

/-- The digits of a number end where a stop that is no digit comes. -/
theorem delimitedBy_toDigits {stops : List Char} (hstops : ∀ c ∈ stops, c.isDigit = false) :
    DelimitedBy stops (Nat.toDigits 10) := by
  have hcut : ∀ n x, StopsAt stops x → (Nat.toDigits 10 n ++ x).takeWhile Char.isDigit = Nat.toDigits 10 n := by
    rintro n x ⟨c, rest, rfl, hc⟩
    have hdigits : ∀ d ∈ Nat.toDigits 10 n, d.isDigit = true :=
      fun d hd => Nat.isDigit_of_mem_toDigits (by decide) (by decide) hd
    rw [List.takeWhile_append_of_pos hdigits, List.takeWhile_cons_of_neg (by rw [hstops c hc]; decide), List.append_nil]
  intro a b x y hx hy h
  have hdigits : Nat.toDigits 10 a = Nat.toDigits 10 b := by
    rw [← hcut a x hx, ← hcut b y hy, h]
  have hsame : a = b := by
    rw [← Nat.ofDigitChars_ten_toDigits (n := a), ← Nat.ofDigitChars_ten_toDigits (n := b), hdigits]
  rw [hdigits] at h
  exact ⟨hsame, List.append_cancel_left h⟩

/-! ### Lists -/

/-- The items after the first, and the bracket. -/
def writeTail (write : α → List Char) : List α → List Char
  | [] => [']']
  | a :: l => ',' :: (write a ++ writeTail write l)

def writeList (write : α → List Char) : List α → List Char
  | [] => ['[', ']']
  | a :: l => '[' :: (write a ++ writeTail write l)

theorem writeTail_cons_append (write : α → List Char) (a : α) (l : List α) (x : List Char) :
    writeTail write (a :: l) ++ x = ',' :: (write a ++ (writeTail write l ++ x)) := by
  rw [writeTail, List.cons_append, List.append_assoc]

theorem writeList_cons_append (write : α → List Char) (a : α) (l : List α) (x : List Char) :
    writeList write (a :: l) ++ x = '[' :: (write a ++ (writeTail write l ++ x)) := by
  rw [writeList, List.cons_append, List.append_assoc]

theorem stopsAt_writeTail (write : α → List Char) (l : List α) (x : List Char) :
    StopsAt [',', ']'] (writeTail write l ++ x) := by
  cases l with
  | nil => exact ⟨']', x, rfl, by decide⟩
  | cons a l => exact ⟨',', _, rfl, by decide⟩

theorem selfDelimited_writeTail {write : α → List Char} (h : DelimitedBy [',', ']'] write) :
    SelfDelimited (writeTail write) := by
  intro l
  induction l with
  | nil =>
    intro m x y heq
    cases m with
    | nil => exact ⟨rfl, (List.cons.inj heq).2⟩
    | cons b m =>
      rw [writeTail_cons_append] at heq
      exact absurd (List.cons.inj heq).1 (by decide)
  | cons a l ih =>
    intro m x y heq
    rw [writeTail_cons_append] at heq
    cases m with
    | nil => exact absurd (List.cons.inj heq).1 (by decide)
    | cons b m =>
      rw [writeTail_cons_append] at heq
      obtain ⟨rfl, hrest⟩ :=
        h _ _ _ _ (stopsAt_writeTail write l x) (stopsAt_writeTail write m y) (List.cons.inj heq).2
      obtain ⟨rfl, rfl⟩ := ih _ _ _ hrest
      exact ⟨rfl, rfl⟩

/-- No item begins with the bracket that ends the list. -/
def Opens (write : α → List Char) : Prop := ∀ a, ∃ c cs, write a = c :: cs ∧ c ≠ ']'

theorem selfDelimited_writeList {write : α → List Char} (h : DelimitedBy [',', ']'] write) (hopens : Opens write) :
    SelfDelimited (writeList write) := by
  have hempty : ∀ (a : α) (x y : List Char), ']' :: x ≠ write a ++ y := by
    intro a x y heq
    obtain ⟨c, cs, hwrite, hc⟩ := hopens a
    rw [hwrite] at heq
    exact hc (List.cons.inj heq).1.symm
  intro l m x y heq
  cases l with
  | nil =>
    cases m with
    | nil => exact ⟨rfl, (List.cons.inj (List.cons.inj heq).2).2⟩
    | cons b m =>
      rw [writeList_cons_append] at heq
      exact absurd (List.cons.inj heq).2 (hempty b _ _)
  | cons a l =>
    rw [writeList_cons_append] at heq
    cases m with
    | nil => exact absurd (List.cons.inj heq).2.symm (hempty a _ _)
    | cons b m =>
      rw [writeList_cons_append] at heq
      obtain ⟨rfl, hrest⟩ :=
        h _ _ _ _ (stopsAt_writeTail write l x) (stopsAt_writeTail write m y) (List.cons.inj heq).2
      obtain ⟨rfl, rfl⟩ := selfDelimited_writeTail h _ _ _ _ hrest
      exact ⟨rfl, rfl⟩

/-- The items of a list in brackets, with commas between them. -/
def bracketed (items : List String) : String := "[" ++ ",".intercalate items ++ "]"

theorem toList_bracketed (write : α → String) (l : List α) :
    (bracketed (l.map write)).toList = writeList (fun a => (write a).toList) l := by
  have hitems : ∀ a, ∀ l : List α, (",".intercalate ((a :: l).map write)).toList ++ [']'] =
      (write a).toList ++ writeTail (fun a => (write a).toList) l := by
    intro a l
    induction l generalizing a with
    | nil =>
      rw [List.map_singleton, String.intercalate_singleton]
      rfl
    | cons b l ih =>
      rw [List.map_cons, List.map_cons, String.intercalate_cons_cons, String.toList_append, String.toList_append,
        List.append_assoc, List.append_assoc, ← List.map_cons, ih b]
      rfl
  unfold bracketed
  cases l with
  | nil =>
    rw [List.map_nil, String.intercalate_nil]
    rfl
  | cons a l =>
    rw [String.toList_append, String.toList_append, List.append_assoc, writeList]
    exact congrArg ('[' :: ·) (hitems a l)

/-- Bracketed lists of texts of one writing tell its values apart. -/
theorem bracketed_inj {write : α → String} (h : DelimitedBy [',', ']'] fun a => (write a).toList)
    (hopens : Opens fun a => (write a).toList) {texts texts' : List String} (htexts : ∀ s ∈ texts, ∃ a, write a = s)
    (htexts' : ∀ s ∈ texts', ∃ a, write a = s) {x y : List Char}
    (heq : (bracketed texts).toList ++ x = (bracketed texts').toList ++ y) : texts = texts' ∧ x = y := by
  have himage : ∀ l : List String, (∀ s ∈ l, ∃ a, write a = s) → ∃ values : List α, values.map write = l := by
    intro l hl
    induction l with
    | nil => exact ⟨[], rfl⟩
    | cons s l ih =>
      obtain ⟨a, rfl⟩ := hl s List.mem_cons_self
      obtain ⟨values, rfl⟩ := ih fun s hs => hl s (List.mem_cons_of_mem _ hs)
      exact ⟨a :: values, rfl⟩
  obtain ⟨values, rfl⟩ := himage texts htexts
  obtain ⟨values', rfl⟩ := himage texts' htexts'
  rw [toList_bracketed, toList_bracketed] at heq
  obtain ⟨rfl, hrest⟩ := selfDelimited_writeList h hopens _ _ _ _ heq
  exact ⟨rfl, hrest⟩

end TextCodec
