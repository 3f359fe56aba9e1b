import Verdant.Domain.Json
import Verdant.Library.Result

/-!
# Number literals

A number keeps its raw text.  The text the reader takes is read again as itself, whatever stands behind it, as long as
that cannot continue a number (`parseNumber_append`).
-/

namespace Verdant.Json

/-! ### Runs of digits -/

/-- The input goes on with no digit. -/
def NoDigit (rest : List Char) : Prop := ∀ c ∈ rest.head?, c.isDigit = false

/-- The input goes on with nothing that continues a number. -/
def Stops (rest : List Char) : Prop := ∀ c ∈ rest.head?, c.isDigit = false ∧ c ≠ '.' ∧ c ≠ 'e' ∧ c ≠ 'E'

theorem Stops.noDigit {rest : List Char} (h : Stops rest) : NoDigit rest := fun c hc => (h c hc).1

theorem stops_nil : Stops [] := by
  intro c hc
  exact nomatch hc

theorem stops_cons {c : Char} {rest : List Char} (h : c.isDigit = false ∧ c ≠ '.' ∧ c ≠ 'e' ∧ c ≠ 'E') :
    Stops (c :: rest) := by
  intro d hd
  cases hd
  exact h

theorem spanDigits_append {digits rest : List Char} (hdigits : ∀ c ∈ digits, c.isDigit = true) (hrest : NoDigit rest) :
    spanDigits (digits ++ rest) = (digits, rest) := by
  unfold spanDigits
  rw [List.span_eq_takeWhile_dropWhile, List.takeWhile_append_of_pos hdigits, List.dropWhile_append_of_pos hdigits]
  cases rest with
  | nil => simp
  | cons c rest =>
    have hc := hrest c rfl
    simp [hc]

theorem spanDigits_eq {cs digits rest : List Char} (h : spanDigits cs = (digits, rest)) :
    cs = digits ++ rest ∧ ∀ c ∈ digits, c.isDigit = true := by
  unfold spanDigits at h
  rw [List.span_eq_takeWhile_dropWhile, Prod.mk.injEq] at h
  obtain ⟨rfl, rfl⟩ := h
  exact ⟨(List.takeWhile_append_dropWhile).symm, fun c hc => List.mem_takeWhile_imp hc⟩

/-! ### The parts of a number -/

/-- The part behind the point; empty when there is none. -/
inductive Fraction : List Char → Prop where
  | none : Fraction []
  | digits (digits : List Char) (nonempty : digits ≠ []) (all : ∀ c ∈ digits, c.isDigit = true) :
    Fraction ('.' :: digits)

/-- The exponent; empty when there is none. -/
inductive Exponent : List Char → Prop where
  | none : Exponent []
  | digits (mark : Char) (sign digits : List Char) (marked : mark = 'e' ∨ mark = 'E')
    (signed : sign = [] ∨ sign = ['+'] ∨ sign = ['-']) (nonempty : digits ≠ [])
    (all : ∀ c ∈ digits, c.isDigit = true) : Exponent (mark :: sign ++ digits)

/-- The texts the number reader accepts. -/
inductive NumberText : List Char → Prop where
  | parts (sign digits fraction exponent : List Char) (signed : sign = [] ∨ sign = ['-']) (nonempty : digits ≠ [])
    (all : ∀ c ∈ digits, c.isDigit = true) (fractional : Fraction fraction) (exponential : Exponent exponent) :
    NumberText (sign ++ digits ++ fraction ++ exponent)

theorem not_isDigit_of_mark {c : Char} (h : c = 'e' ∨ c = 'E') : c.isDigit = false ∧ c ≠ '.' := by
  rcases h with rfl | rfl <;> decide

theorem parseFraction_eq {cs fraction rest : List Char} (h : parseFraction cs = .ok (fraction, rest)) :
    Fraction fraction := by
  unfold parseFraction at h
  split at h
  · rename_i more
    cases hspan : spanDigits more with
    | mk digits tail =>
      simp only [hspan, Result.ite_error_eq_ok] at h
      obtain ⟨hne, h⟩ := h
      cases h
      exact .digits digits hne (spanDigits_eq hspan).2
  · cases h
    exact .none

theorem parseExponent_eq {cs exponent rest : List Char} (h : parseExponent cs = .ok (exponent, rest)) :
    Exponent exponent := by
  unfold parseExponent at h
  split at h
  · rename_i mark more
    split at h
    · rename_i hmark
      split at h
      rename_i sign tail hread
      have hsigned : sign = [] ∨ sign = ['+'] ∨ sign = ['-'] := by
        split at hread
        · cases hread
          exact .inr (.inl rfl)
        · cases hread
          exact .inr (.inr rfl)
        · cases hread
          exact .inl rfl
      cases hspan : spanDigits tail with
      | mk digits tail' =>
        simp only [hspan, Result.ite_error_eq_ok] at h
        obtain ⟨hne, h⟩ := h
        cases h
        exact .digits mark sign digits hmark hsigned hne (spanDigits_eq hspan).2
    · cases h
      exact .none
  · cases h
    exact .none

theorem parseNumber_eq {cs : List Char} {raw : String} {rest : List Char} (h : parseNumber cs = .ok (raw, rest)) :
    NumberText raw.toList := by
  unfold parseNumber at h
  split at h
  rename_i sign tail hread
  have hsigned : sign = [] ∨ sign = ['-'] := by
    split at hread
    · cases hread
      exact .inr rfl
    · cases hread
      exact .inl rfl
  cases hspan : spanDigits tail with
  | mk digits tail' =>
    simp only [hspan, Result.ite_error_eq_ok] at h
    obtain ⟨hne, h⟩ := h
    obtain ⟨⟨fraction, rest'⟩, hfraction, h⟩ := Result.bind_eq_ok.1 h
    obtain ⟨⟨exponent, rest''⟩, hexponent, h⟩ := Result.bind_eq_ok.1 h
    cases h
    rw [String.toList_ofList]
    exact .parts sign digits fraction exponent hsigned hne (spanDigits_eq hspan).2 (parseFraction_eq hfraction)
      (parseExponent_eq hexponent)

/-! ### Reading a number again -/

theorem noDigit_exponent {exponent rest : List Char} (h : Exponent exponent) (hrest : Stops rest) :
    NoDigit (exponent ++ rest) ∧ ∀ c ∈ (exponent ++ rest).head?, c ≠ '.' := by
  cases h with
  | none => exact ⟨hrest.noDigit, fun c hc => (hrest c hc).2.1⟩
  | digits mark sign digits marked =>
    have hmark := not_isDigit_of_mark marked
    constructor
    · intro c hc
      cases hc
      exact hmark.1
    · intro c hc
      cases hc
      exact hmark.2

theorem parseExponent_append {exponent rest : List Char} (h : Exponent exponent) (hrest : Stops rest) :
    parseExponent (exponent ++ rest) = .ok (exponent, rest) := by
  cases h with
  | none =>
    cases rest with
    | nil => rfl
    | cons c rest =>
      obtain ⟨-, -, he, hE⟩ := hrest c rfl
      simp [parseExponent, he, hE]
  | digits mark sign digits marked signed nonempty all =>
    have hspan := spanDigits_append all hrest.noDigit
    obtain ⟨d, ds, rfl⟩ := List.exists_cons_of_ne_nil nonempty
    have hd := all d List.mem_cons_self
    have hplus : d ≠ '+' := by
      rintro rfl
      exact absurd hd (by decide)
    have hminus : d ≠ '-' := by
      rintro rfl
      exact absurd hd (by decide)
    rcases signed with rfl | rfl | rfl
    · simp only [List.cons_append, List.nil_append, parseExponent, if_pos marked]
      simp only [List.cons_append] at hspan
      split
      · rename_i heq
        exact absurd (List.cons.inj heq).1 hplus
      · rename_i heq
        exact absurd (List.cons.inj heq).1 hminus
      · simp [hspan]
    · simp only [List.cons_append, List.nil_append] at hspan ⊢
      simp only [parseExponent, if_pos marked, hspan]
      simp
    · simp only [List.cons_append, List.nil_append] at hspan ⊢
      simp only [parseExponent, if_pos marked, hspan]
      simp

theorem parseFraction_append {fraction exponent rest : List Char} (h : Fraction fraction) (hexponent : Exponent exponent)
    (hrest : Stops rest) : parseFraction (fraction ++ (exponent ++ rest)) = .ok (fraction, exponent ++ rest) := by
  obtain ⟨hdigit, hpoint⟩ := noDigit_exponent hexponent hrest
  cases h with
  | none =>
    rw [List.nil_append]
    unfold parseFraction
    split
    · rename_i more heq
      rw [heq] at hpoint
      exact absurd rfl (hpoint '.' rfl)
    · rfl
  | digits digits nonempty all =>
    rw [List.cons_append, parseFraction, spanDigits_append all hdigit]
    simp [nonempty]

/-- A number is read as itself in front of anything that does not continue it. -/
theorem parseNumber_append {raw : String} (h : NumberText raw.toList) {rest : List Char} (hrest : Stops rest) :
    parseNumber (raw.toList ++ rest) = .ok (raw, rest) := by
  generalize hchars : raw.toList = chars at h
  cases h with
  | parts sign digits fraction exponent signed nonempty all fractional exponential =>
    have hraw : String.ofList (sign ++ digits ++ fraction ++ exponent) = raw := by
      rw [← hchars, String.ofList_toList]
    have hfraction := parseFraction_append fractional exponential hrest
    have hexponent := parseExponent_append exponential hrest
    have hnext : NoDigit (fraction ++ (exponent ++ rest)) := by
      cases fractional with
      | none => exact (noDigit_exponent exponential hrest).1
      | digits =>
        intro c hc
        cases hc
        decide
    have hspan := spanDigits_append all hnext
    obtain ⟨d, ds, rfl⟩ := List.exists_cons_of_ne_nil nonempty
    have hminus : d ≠ '-' := by
      rintro rfl
      exact absurd (all '-' List.mem_cons_self) (by decide)
    have hassoc : sign ++ d :: ds ++ fraction ++ exponent ++ rest = sign ++ (d :: ds ++ (fraction ++ (exponent ++ rest))) := by
      simp only [List.append_assoc]
    rw [hassoc]
    rcases signed with rfl | rfl
    · rw [List.nil_append]
      unfold parseNumber
      simp only [List.cons_append] at hspan ⊢
      split
      · rename_i heq
        exact absurd (List.cons.inj heq).1 hminus
      · simp only [hspan, reduceCtorEq, if_false, hfraction, hexponent, Result.ok_bind]
        rw [← hraw]
    · rw [List.singleton_append]
      unfold parseNumber
      simp only [hspan, reduceCtorEq, if_false, hfraction, hexponent, Result.ok_bind]
      rw [← hraw]

theorem NumberText.head {chars : List Char} (h : NumberText chars) :
    ∃ c rest, chars = c :: rest ∧ (c = '-' ∨ c.isDigit = true) := by
  cases h with
  | parts sign digits fraction exponent signed nonempty all =>
    obtain ⟨d, ds, rfl⟩ := List.exists_cons_of_ne_nil nonempty
    rcases signed with rfl | rfl
    · exact ⟨d, ds ++ fraction ++ exponent, rfl, .inr (all d List.mem_cons_self)⟩
    · exact ⟨'-', d :: ds ++ fraction ++ exponent, rfl, .inl rfl⟩

end Verdant.Json
