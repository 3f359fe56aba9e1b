import Verdant.Storage.Mutation

/-!
# Receipt responses read back

`decodeResponse` undoes `encodeResponse` on every row list that `validateRows` accepts, for each shape, so a replayed
receipt answers with the very rows its application returned.
-/

namespace Verdant.Storage

open TextCodec

/-- A text without the separator is what stands before the first one. -/
theorem splitOnce_append {sep : Char} {a b : String} (h : sep ∉ a.toList) :
    splitOnce sep (a ++ String.singleton sep ++ b) = some (a, b) := by
  have hspan : (a.toList ++ sep :: b.toList).span (· ≠ sep) = (a.toList, sep :: b.toList) := by
    rw [List.span_eq_takeWhile_dropWhile]
    have hall : ∀ c ∈ a.toList, decide (c ≠ sep) = true := by
      intro c hc
      have hne : c ≠ sep := by
        rintro rfl
        exact h hc
      simpa using hne
    rw [List.takeWhile_append_of_pos hall, List.dropWhile_append_of_pos hall]
    simp
  have hlist : (a ++ String.singleton sep ++ b).toList = a.toList ++ sep :: b.toList := by simp
  unfold splitOnce
  rw [hlist, hspan]
  simp

@[simp]
theorem unhex_hexText (s : String) : unhex (hexText s) = .ok s := by
  have hbytes : (⟨s.toByteArray.data.toList.toArray⟩ : ByteArray) = s.toByteArray := by simp
  have hdecode : String.fromUTF8? s.toByteArray = some s := by
    unfold String.fromUTF8?
    rw [dif_pos s.isValidUTF8]
    rfl
  unfold unhex hexText
  rw [String.toList_ofList, bytesOfHex_hexOfBytes]
  simp only [hbytes, hdecode]

theorem hexText_injective : Function.Injective hexText := by
  intro a b h
  have := unhex_hexText a
  rw [h, unhex_hexText] at this
  exact (Except.ok.inj this).symm

@[simp]
theorem hexText_empty : hexText "" = "" := by decide

private theorem sep_not_mem_hexText (s : String) : ',' ∉ (hexText s).toList ∧ ';' ∉ (hexText s).toList :=
  ⟨not_mem_hexText (by decide), not_mem_hexText (by decide)⟩

private theorem split_row {row : List String} (h : row ≠ []) :
    splitText ',' (joinText ',' (row.map hexText)) = row.map hexText := by
  apply splitText_joinText
  · intro f hf
    obtain ⟨s, -, rfl⟩ := List.mem_map.1 hf
    exact (sep_not_mem_hexText s).1
  · simpa using h

private theorem semicolon_not_mem_row (row : List String) : ';' ∉ (joinText ',' (row.map hexText)).toList := by
  apply not_mem_joinText (by decide)
  intro f hf
  obtain ⟨s, -, rfl⟩ := List.mem_map.1 hf
  exact (sep_not_mem_hexText s).2

private theorem mapM_unhex (row : List String) : (row.map hexText).mapM unhex = .ok row := by
  induction row with
  | nil => rfl
  | cons cell row ih =>
    simp only [List.map_cons, List.mapM_cons, unhex_hexText, ih]
    rfl

/-- Row lists whose rows are nonempty and that are not the single empty cell. -/
def Framed (rows : Rows) : Prop := (∀ row ∈ rows, row ≠ []) ∧ rows ≠ [[""]]

private theorem split_response {rows : Rows} (hrow : ∀ row ∈ rows, row ≠ []) (hne : rows ≠ []) :
    (splitText ';' (encodeResponse rows)).mapM (fun row => (splitText ',' row).mapM unhex) = .ok rows := by
  unfold encodeResponse
  rw [splitText_joinText _ (by simpa using hne)]
  · clear hne
    induction rows with
    | nil => rfl
    | cons row rows ih =>
      have hhead := split_row (hrow row List.mem_cons_self)
      have htail := ih fun r hr => hrow r (List.mem_cons_of_mem _ hr)
      simp only [List.map_cons, List.mapM_cons, hhead, mapM_unhex, htail]
      rfl
  · intro f hf
    obtain ⟨row, -, rfl⟩ := List.mem_map.1 hf
    exact semicolon_not_mem_row row

theorem decodeResponse_encodeResponse {rows : Rows} (h : Framed rows) :
    decodeResponse (encodeResponse rows) = .ok rows := by
  by_cases hnil : rows = []
  · subst hnil
    rfl
  have hsplit := split_response h.1 hnil
  unfold decodeResponse
  split
  · rename_i hempty
    -- The empty text splits into one empty cell, which a framed list is not.
    rw [hempty] at hsplit
    have hcell : (splitText ';' "").mapM (fun row => (splitText ',' row).mapM unhex) = .ok [[""]] := by
      have := @split_response [[""]] (by simp) (by simp)
      simpa [encodeResponse, joinText] using this
    rw [hcell] at hsplit
    exact absurd (Except.ok.inj hsplit).symm h.2
  · exact hsplit

/-! ### What `validateRows` accepts -/

theorem scalar_eq_ok {rows : Rows} {cell : String} : scalar rows = .ok cell ↔ rows = [[cell]] := by
  unfold scalar
  split
  · simp
  · rename_i hne
    constructor
    · intro h
      exact nomatch h
    · rintro rfl
      exact absurd rfl (hne cell)

theorem validateRows_insert {rows : Rows} :
    validateRows .insert rows = .ok () ↔
      ∃ cell n, rows = [[cell], ["1"]] ∧ parseI64 cell = some n ∧ 0 < n := by
  simp only [validateRows]
  constructor
  · intro h
    split at h
    · rename_i first second
      rw [Result.bind_eq_ok] at h
      obtain ⟨cell, hcell, h⟩ := h
      rw [scalar_eq_ok] at hcell
      cases hcell
      split at h
      · rename_i n hn
        obtain ⟨hparse, hpos⟩ := Option.filter_eq_some_iff.1 hn
        split at h
        · rename_i hone
          exact ⟨cell, n, by rw [hone], hparse, by simpa using hpos⟩
        · exact nomatch h
      · exact nomatch h
    · exact nomatch h
  · rintro ⟨cell, n, rfl, hparse, hpos⟩
    have hkeep : (parseI64 cell).filter (fun n => decide (0 < n)) = some n :=
      Option.filter_eq_some_iff.2 ⟨hparse, by simpa using hpos⟩
    simp [scalar, hkeep]

theorem validateRows_rows {rows : Rows} :
    validateRows .rows rows = .ok () ↔ ∀ row ∈ rows, ∃ r, decodeRow row = .ok r := by
  simp only [validateRows]
  rw [Result.forM_eq_ok]
  refine forall₂_congr fun row _ => ?_
  rw [Result.bind_eq_ok]
  simp

theorem validateRows_change {rows : Rows} :
    validateRows .change rows = .ok () ↔ rows = [["0"]] ∨ rows = [["1"]] := by
  simp only [validateRows]
  rw [Result.bind_eq_ok]
  constructor
  · rintro ⟨cell, hcell, h⟩
    rw [scalar_eq_ok] at hcell
    subst hcell
    split at h
    · rename_i hcase
      simpa using hcase
    · exact nomatch h
  · rintro (rfl | rfl)
    · exact ⟨"0", by simp [scalar]⟩
    · exact ⟨"1", by simp [scalar]⟩

theorem framed_of_validateRows {shape : Shape} {rows : Rows} (h : validateRows shape rows = .ok ()) :
    Framed rows := by
  cases shape with
  | insert =>
    obtain ⟨cell, n, rfl, -⟩ := validateRows_insert.1 h
    exact ⟨by simp, by simp⟩
  | rows =>
    have hlen : ∀ row ∈ rows, row.length = 13 := by
      intro row hrow
      obtain ⟨r, hr⟩ := validateRows_rows.1 h row hrow
      exact length_of_decodeRow hr
    refine ⟨?_, ?_⟩
    · rintro row hrow rfl
      have := hlen [] hrow
      simp at this
    · rintro rfl
      have := hlen [""] (by simp)
      simp at this
  | change =>
    rcases validateRows_change.1 h with rfl | rfl
    · exact ⟨by simp, by simp⟩
    · exact ⟨by simp, by simp⟩

end Verdant.Storage
