import Verdant.Library.Text

/-!
# Two parts of a text

A text of two parts with a separator between them, where the parts may hold the separator themselves.  Two such texts are
equal when their parts are, or when one is cut at a separator inside a part of the other (`append_cons_eq_iff`).  A pair of
parts is the only reading of its text exactly when no other separator cuts it into acceptable parts (`soleCut_iff`).
-/

namespace TextCodec

theorem append_cons_eq_iff {α : Type} {sep : α} {a b c d : List α} :
    a ++ sep :: b = c ++ sep :: d ↔ (a = c ∧ b = d) ∨ (∃ x, c = a ++ sep :: x ∧ b = x ++ sep :: d) ∨
      ∃ x, a = c ++ sep :: x ∧ d = x ++ sep :: b := by
  constructor
  · intro h
    rcases List.append_eq_append_iff.1 h with ⟨x, hc, hx⟩ | ⟨x, ha, hx⟩
    · cases x with
      | nil =>
        rw [List.append_nil] at hc
        rw [List.nil_append, List.cons.injEq] at hx
        exact .inl ⟨hc.symm, hx.2⟩
      | cons s x =>
        rw [List.cons_append, List.cons.injEq] at hx
        obtain ⟨rfl, hb⟩ := hx
        exact .inr (.inl ⟨x, hc, hb⟩)
    · cases x with
      | nil =>
        rw [List.append_nil] at ha
        rw [List.nil_append, List.cons.injEq] at hx
        exact .inl ⟨ha, hx.2.symm⟩
      | cons s x =>
        rw [List.cons_append, List.cons.injEq] at hx
        obtain ⟨rfl, hd⟩ := hx
        exact .inr (.inr ⟨x, ha, hd⟩)
  · rintro (⟨rfl, rfl⟩ | ⟨x, rfl, rfl⟩ | ⟨x, rfl, rfl⟩)
    · rfl
    · rw [List.append_assoc, List.cons_append]
    · rw [List.append_assoc, List.cons_append]

/-- Two texts that begin after their last separator are told apart by it. -/
theorem append_cons_inj_right {α : Type} {sep : α} {a b x y : List α} (hx : sep ∉ x) (hy : sep ∉ y)
    (h : a ++ sep :: x = b ++ sep :: y) : a = b ∧ x = y := by
  rcases append_cons_eq_iff.1 h with hsame | ⟨z, -, hxz⟩ | ⟨z, -, hyz⟩
  · exact hsame
  · exact absurd (by rw [hxz]; simp) hx
  · exact absurd (by rw [hyz]; simp) hy

/-- Two texts with as many separators are told apart by the next one. -/
theorem append_cons_inj_of_count {α : Type} [DecidableEq α] {sep : α} {a b x y : List α}
    (hcount : a.count sep = b.count sep) (h : a ++ sep :: x = b ++ sep :: y) : a = b ∧ x = y := by
  rcases append_cons_eq_iff.1 h with hsame | ⟨z, hb, -⟩ | ⟨z, ha, -⟩
  · exact hsame
  · rw [hb, List.count_append, List.count_cons_self] at hcount
    omega
  · rw [ha, List.count_append, List.count_cons_self] at hcount
    omega

/-- Two parts with a separator between them. -/
def joinTwo (sep : Char) (a b : String) : String := String.ofList (a.toList ++ sep :: b.toList)

theorem toList_joinTwo (sep : Char) (a b : String) : (joinTwo sep a b).toList = a.toList ++ sep :: b.toList :=
  String.toList_ofList

theorem joinTwo_assoc (sep : Char) (a b c : String) : joinTwo sep (joinTwo sep a b) c = joinTwo sep a (joinTwo sep b c) := by
  apply String.toList_injective
  simp only [toList_joinTwo, List.append_assoc, List.cons_append]

/-- What is cut at a separator is the join of the pieces. -/
theorem eq_joinTwo_of_toList {sep : Char} {a : String} {b c : List Char} (h : a.toList = b ++ sep :: c) :
    a = joinTwo sep (String.ofList b) (String.ofList c) := by
  apply String.toList_injective
  rw [toList_joinTwo, h, String.toList_ofList, String.toList_ofList]

theorem joinTwo_eq_iff {sep : Char} {a b c d : String} :
    joinTwo sep a b = joinTwo sep c d ↔ (a = c ∧ b = d) ∨ (∃ x, c = joinTwo sep a x ∧ b = joinTwo sep x d) ∨
      ∃ x, a = joinTwo sep c x ∧ d = joinTwo sep x b := by
  constructor
  · intro h
    have hlist := congrArg String.toList h
    rw [toList_joinTwo, toList_joinTwo, append_cons_eq_iff] at hlist
    rcases hlist with ⟨ha, hb⟩ | ⟨x, hc, hb⟩ | ⟨x, ha, hd⟩
    · exact .inl ⟨String.toList_injective ha, String.toList_injective hb⟩
    · have hc := eq_joinTwo_of_toList hc
      have hb := eq_joinTwo_of_toList hb
      rw [String.ofList_toList] at hc hb
      exact .inr (.inl ⟨_, hc, hb⟩)
    · have ha := eq_joinTwo_of_toList ha
      have hd := eq_joinTwo_of_toList hd
      rw [String.ofList_toList] at ha hd
      exact .inr (.inr ⟨_, ha, hd⟩)
  · rintro (⟨rfl, rfl⟩ | ⟨x, rfl, rfl⟩ | ⟨x, rfl, rfl⟩)
    · rfl
    · exact (joinTwo_assoc sep a x d).symm
    · exact joinTwo_assoc sep c x b

/-- A longer text than either of its parts. -/
theorem joinTwo_ne_left (sep : Char) (a b : String) : joinTwo sep a b ≠ a := by
  intro h
  have hlength := congrArg (fun s => s.toList.length) h
  simp only [toList_joinTwo, List.length_append, List.length_cons] at hlength
  omega

theorem joinTwo_ne_right (sep : Char) (a b : String) : joinTwo sep a b ≠ b := by
  intro h
  have hlength := congrArg (fun s => s.toList.length) h
  simp only [toList_joinTwo, List.length_append, List.length_cons] at hlength
  omega

/-- No separator inside a part cuts the text into a left and a right part. -/
structure SoleCut (sep : Char) (left right : String → Prop) (a b : String) : Prop where
  inRight : ∀ x y, b = joinTwo sep x y → ¬ (left (joinTwo sep a x) ∧ right y)
  inLeft : ∀ x y, a = joinTwo sep x y → ¬ (left x ∧ right (joinTwo sep y b))

theorem soleCut_iff {sep : Char} {left right : String → Prop} {a b : String} :
    SoleCut sep left right a b ↔
      ∀ c d, left c → right d → joinTwo sep c d = joinTwo sep a b → c = a ∧ d = b := by
  constructor
  · intro h c d hc hd hjoin
    rcases joinTwo_eq_iff.1 hjoin with hsame | ⟨x, rfl, rfl⟩ | ⟨x, rfl, rfl⟩
    · exact hsame
    · exact absurd ⟨hc, hd⟩ (h.inLeft c x rfl)
    · exact absurd ⟨hc, hd⟩ (h.inRight x d rfl)
  · intro h
    refine ⟨fun x y hb hboth => ?_, fun x y ha hboth => ?_⟩
    · have hsame := h _ _ hboth.1 hboth.2 (by rw [hb, joinTwo_assoc])
      exact joinTwo_ne_left sep a x hsame.1
    · have hsame := h _ _ hboth.1 hboth.2 (by rw [ha, joinTwo_assoc])
      exact joinTwo_ne_right sep y b hsame.2

/-- Parts without the separator are the only ones. -/
theorem SoleCut.of_not_mem {sep : Char} {left right : String → Prop} {a b : String} (ha : sep ∉ a.toList)
    (hb : sep ∉ b.toList) : SoleCut sep left right a b where
  inRight x y h := absurd (by rw [h, toList_joinTwo]; simp) hb
  inLeft x y h := absurd (by rw [h, toList_joinTwo]; simp) ha

/-- A text splits at each of its separators. -/
theorem length_splitText (sep : Char) (s : String) : (splitText sep s).length = s.toList.count sep + 1 := by
  unfold splitText
  rw [List.length_map]
  induction s.toList with
  | nil => rfl
  | cons c cs ih =>
    rw [List.splitOn_cons_eq_if_modifyHead, List.count_cons]
    split
    · rw [List.length_cons, ih]
    · rw [List.length_modifyHead, ih]

/-! ### Joined fields -/

theorem toList_joinText_cons (sep : Char) (f g : String) (fields : List String) :
    (joinText sep (f :: g :: fields)).toList = f.toList ++ sep :: (joinText sep (g :: fields)).toList := by
  unfold joinText
  simp

theorem joinText_singleton (sep : Char) (f : String) : joinText sep [f] = f := by
  unfold joinText
  simp

/-- A joined text has the separators of its fields, and those between them. -/
theorem count_joinText (sep : Char) (f : String) (fields : List String) :
    (joinText sep (f :: fields)).toList.count sep =
      ((f :: fields).map fun g => g.toList.count sep).sum + fields.length := by
  induction fields generalizing f with
  | nil =>
    rw [joinText_singleton]
    simp
  | cons g fields ih =>
    rw [toList_joinText_cons, List.count_append, List.count_cons_self, ih]
    simp only [List.map_cons, List.sum_cons, List.length_cons]
    omega

/-- Fields with the same numbers of separators are told apart by their joined text. -/
theorem joinText_inj_of_count {sep : Char} {as bs : List String}
    (hcount : (as.map fun f => f.toList.count sep) = bs.map fun f => f.toList.count sep)
    (h : joinText sep as = joinText sep bs) : as = bs := by
  induction as generalizing bs with
  | nil => exact (List.map_eq_nil_iff.1 hcount.symm).symm
  | cons a as ih =>
    cases bs with
    | nil => exact nomatch hcount
    | cons b bs =>
      rw [List.map_cons, List.map_cons, List.cons.injEq] at hcount
      obtain ⟨hhead, htail⟩ := hcount
      have hlength : as.length = bs.length := by
        have hmap := congrArg List.length htail
        rwa [List.length_map, List.length_map] at hmap
      cases as with
      | nil =>
        obtain rfl : bs = [] := List.length_eq_zero_iff.1 hlength.symm
        rw [joinText_singleton, joinText_singleton] at h
        rw [h]
      | cons a' as =>
        cases bs with
        | nil => exact nomatch hlength
        | cons b' bs =>
          have hlist := congrArg String.toList h
          rw [toList_joinText_cons, toList_joinText_cons] at hlist
          obtain ⟨hab, hrest⟩ := append_cons_inj_of_count hhead hlist
          rw [String.toList_injective hab, ih htail (String.toList_injective hrest)]

end TextCodec
