import Verdant.Domain.JsonLiteral
import Verdant.Domain.JsonNumber
import Verdant.Library.Lines

/-!
# JSON values

`stringify` and `parse` are two recursions over the same values.  What `parse` accepts is `Readable`: it nests no deeper
than the budget, its numbers are number texts and its keys ascend.  A readable value is read back from its canonical
text (`parseValue_stringify`), and an object from its members in any order (`parseFields_members`).
-/

namespace Verdant.Json

/-! ### Canonical serialization -/

mutual

/-- Canonical text of a value. -/
def stringify : JsonVal → String
  | .null => "null"
  | .bool true => "true"
  | .bool false => "false"
  | .number raw => raw
  | .str s => quote s
  | .array items => "[" ++ stringifyItems true items ++ "]"
  | .object fields => "\x7b" ++ stringifyFields true fields ++ "\x7d"

/-- The items between the brackets, a comma in front of each but the first. -/
def stringifyItems : (first : Bool) → List JsonVal → String
  | _, [] => ""
  | first, item :: items => (if first then "" else ",") ++ stringify item ++ stringifyItems false items

/-- The members between the braces, a comma in front of each but the first. -/
def stringifyFields : (first : Bool) → List (String × JsonVal) → String
  | _, [] => ""
  | first, (key, val) :: fields =>
    (if first then "" else ",") ++ quote key ++ ":" ++ stringify val ++ stringifyFields false fields

end

/-- What `parse` accepts within a nesting budget. -/
inductive Readable : Nat → JsonVal → Prop where
  | null (budget : Nat) : Readable (budget + 1) .null
  | bool (budget : Nat) (b : Bool) : Readable (budget + 1) (.bool b)
  | number (budget : Nat) (raw : String) (text : NumberText raw.toList) : Readable (budget + 1) (.number raw)
  | str (budget : Nat) (s : String) : Readable (budget + 1) (.str s)
  | array (budget : Nat) (items : List JsonVal) (readable : ∀ item ∈ items, Readable budget item) :
    Readable (budget + 1) (.array items)
  | object (budget : Nat) (fields : List (String × JsonVal)) (keys : (fields.map Prod.fst).Pairwise (· < ·))
    (readable : ∀ field ∈ fields, Readable budget field.2) : Readable (budget + 1) (.object fields)

/-! ### Fields -/

theorem insertField_last {fields : List (String × JsonVal)} {key : String} (h : ∀ k ∈ fields.map Prod.fst, k < key)
    (value : JsonVal) : insertField key value fields = some (fields ++ [(key, value)]) := by
  induction fields with
  | nil => rfl
  | cons field fields ih =>
    obtain ⟨k, v⟩ := field
    have hk : k < key := h k (by simp)
    have hrest := ih fun k' hk' => h k' (List.mem_cons_of_mem _ hk')
    rw [insertField, if_neg (ne_of_gt hk), if_neg (not_lt_of_gt hk), hrest]
    rfl

theorem mem_insertField {key : String} {value : JsonVal} {fields out : List (String × JsonVal)}
    (h : insertField key value fields = some out) {field : String × JsonVal} (hfield : field ∈ out) :
    field = (key, value) ∨ field ∈ fields := by
  induction fields generalizing out with
  | nil =>
    cases h
    exact .inl (List.mem_singleton.1 hfield)
  | cons head fields ih =>
    rw [insertField] at h
    split at h
    · cases h
    split at h
    · cases h
      exact List.mem_cons.1 hfield
    · obtain ⟨rest, hrest, rfl⟩ := Option.map_eq_some_iff.1 h
      rcases List.mem_cons.1 hfield with rfl | hfield
      · exact .inr List.mem_cons_self
      · exact (ih hrest hfield).imp_right (List.mem_cons_of_mem _)

theorem insertField_keys {key : String} {value : JsonVal} {fields out : List (String × JsonVal)}
    (hkeys : (fields.map Prod.fst).Pairwise (· < ·)) (h : insertField key value fields = some out) :
    (out.map Prod.fst).Pairwise (· < ·) := by
  induction fields generalizing out with
  | nil =>
    cases h
    simp
  | cons head fields ih =>
    rw [List.map_cons, List.pairwise_cons] at hkeys
    rw [insertField] at h
    split at h
    · cases h
    rename_i hne
    split at h
    · rename_i hlt
      cases h
      rw [List.map_cons, List.map_cons, List.pairwise_cons, List.pairwise_cons]
      refine ⟨?_, hkeys⟩
      intro k hk
      rcases List.mem_cons.1 hk with rfl | hk
      · exact hlt
      · exact lt_trans hlt (hkeys.1 k hk)
    · rename_i hnlt
      have hgt : head.1 < key := lt_of_le_of_ne (not_lt.1 hnlt) (Ne.symm hne)
      obtain ⟨rest, hrest, rfl⟩ := Option.map_eq_some_iff.1 h
      rw [List.map_cons, List.pairwise_cons]
      refine ⟨?_, ih hkeys.2 hrest⟩
      intro k hk
      obtain ⟨field, hfield, rfl⟩ := List.mem_map.1 hk
      rcases mem_insertField hrest hfield with rfl | hold
      · exact hgt
      · exact hkeys.1 field.1 (List.mem_map_of_mem hold)

/-! ### What is accepted is readable -/

private theorem parseFields_readable {budget : Nat} {value : List Char → Except String (JsonVal × List Char)}
    (hvalue : ∀ cs v rest, value cs = .ok (v, rest) → Readable budget v) {fuel : Nat} {cs : List Char}
    {fields : List (String × JsonVal)} {v : JsonVal} {rest : List Char}
    (hkeys : (fields.map Prod.fst).Pairwise (· < ·)) (hread : ∀ field ∈ fields, Readable budget field.2)
    (h : parseFields value fuel cs fields = .ok (v, rest)) : Readable (budget + 1) v := by
  induction fuel generalizing cs fields with
  | zero => exact nomatch h
  | succ fuel ih =>
    rw [parseFields] at h
    split at h
    · exact nomatch h
    obtain ⟨⟨key, cs⟩, -, h⟩ := Result.bind_eq_ok.1 h
    obtain ⟨cs, -, h⟩ := Result.bind_eq_ok.1 h
    obtain ⟨⟨val, cs⟩, hval, h⟩ := Result.bind_eq_ok.1 h
    dsimp only at h
    split at h
    · exact nomatch h
    rename_i out hout
    have hkeys' := insertField_keys hkeys hout
    have hread' : ∀ field ∈ out, Readable budget field.2 := by
      intro field hfield
      rcases mem_insertField hout hfield with rfl | hold
      · exact hvalue _ _ _ hval
      · exact hread field hold
    split at h
    · exact ih hkeys' hread' h
    · cases h
      exact .object budget out hkeys' hread'
    · exact nomatch h
    · exact nomatch h

private theorem parseItems_readable {budget : Nat} {value : List Char → Except String (JsonVal × List Char)}
    (hvalue : ∀ cs v rest, value cs = .ok (v, rest) → Readable budget v) {fuel : Nat} {cs : List Char}
    {items : List JsonVal} {v : JsonVal} {rest : List Char} (hread : ∀ item ∈ items, Readable budget item)
    (h : parseItems value fuel cs items = .ok (v, rest)) : Readable (budget + 1) v := by
  induction fuel generalizing cs items with
  | zero => exact nomatch h
  | succ fuel ih =>
    rw [parseItems] at h
    obtain ⟨⟨val, cs⟩, hval, h⟩ := Result.bind_eq_ok.1 h
    have hread' : ∀ item ∈ val :: items, Readable budget item := by
      intro item hitem
      rcases List.mem_cons.1 hitem with rfl | hold
      · exact hvalue _ _ _ hval
      · exact hread item hold
    dsimp only at h
    split at h
    · exact ih hread' h
    · cases h
      exact .array budget _ fun item hitem => hread' item (List.mem_reverse.1 hitem)
    · exact nomatch h
    · exact nomatch h

private theorem parseLiteral_eq {word : String} {value v : JsonVal} {cs rest : List Char}
    (h : parseLiteral word value cs = .ok (v, rest)) : v = value := by
  unfold parseLiteral at h
  split at h
  · cases h
    rfl
  · exact nomatch h

private theorem map_eq_ok {ε α β : Type} {f : α → β} {x : Except ε α} {b : β} (h : x.map f = .ok b) :
    ∃ a, x = .ok a ∧ f a = b := by
  cases x with
  | error e => exact nomatch h
  | ok a => exact ⟨a, rfl, Except.ok.inj h⟩

theorem parseValue_readable {budget : Nat} {cs : List Char} {v : JsonVal} {rest : List Char}
    (h : parseValue budget cs = .ok (v, rest)) : Readable budget v := by
  induction budget generalizing cs v rest with
  | zero => exact nomatch h
  | succ budget ih =>
    have hvalue := fun cs v rest => @ih cs v rest
    rw [parseValue] at h
    split at h
    · split at h
      · cases h
        exact .object budget [] (by simp) (by simp)
      · exact parseFields_readable hvalue (by simp) (by simp) h
    · split at h
      · cases h
        exact .array budget [] (by simp)
      · exact parseItems_readable hvalue (by simp) h
    · obtain ⟨⟨s, rest'⟩, -, hv⟩ := map_eq_ok h
      cases hv
      exact .str budget s
    · rw [parseLiteral_eq h]
      exact .bool budget true
    · rw [parseLiteral_eq h]
      exact .bool budget false
    · rw [parseLiteral_eq h]
      exact .null budget
    · split at h
      · obtain ⟨⟨raw, rest'⟩, hnumber, hv⟩ := map_eq_ok h
        cases hv
        exact .number budget raw (parseNumber_eq hnumber)
      · exact nomatch h
    · exact nomatch h

/-! ### What is written is read back -/

theorem stringifyItems_comma (item : JsonVal) (items : List JsonVal) :
    (stringifyItems false (item :: items)).toList = ',' :: (stringifyItems true (item :: items)).toList := by
  simp [stringifyItems]

theorem stringifyItems_first (item : JsonVal) (items : List JsonVal) :
    (stringifyItems true (item :: items)).toList = (stringify item).toList ++ (stringifyItems false items).toList := by
  simp [stringifyItems]

theorem length_le_stringifyItems (items : List JsonVal) : items.length ≤ (stringifyItems false items).toList.length := by
  induction items with
  | nil => exact Nat.zero_le _
  | cons item items ih =>
    rw [stringifyItems_comma, stringifyItems_first, List.length_cons, List.length_cons, List.length_append]
    omega

/-- The first character of a value: no whitespace and no closing bracket. -/
def Starts (cs : List Char) : Prop := ∃ c rest, cs = c :: rest ∧ skipWs cs = cs ∧ c ≠ ']' ∧ c ≠ '\x7d'

theorem Starts.append {cs : List Char} (h : Starts cs) (rest : List Char) : Starts (cs ++ rest) := by
  obtain ⟨c, cs, rfl, hskip, hne⟩ := h
  refine ⟨c, cs ++ rest, rfl, ?_, hne⟩
  unfold skipWs at hskip ⊢
  rw [List.cons_append]
  rw [List.dropWhile_cons] at hskip ⊢
  split at hskip
  · have hlen := congrArg List.length hskip
    have hle := (List.dropWhile_suffix (l := cs) fun c => c == ' ' || c == '\t' || c == '\n' || c == '\r').length_le
    rw [List.length_cons] at hlen
    omega
  · rename_i hc
    rw [if_neg hc]

theorem starts_stringify {budget : Nat} {v : JsonVal} (h : Readable budget v) : Starts (stringify v).toList := by
  cases h with
  | null => exact ⟨'n', _, rfl, rfl, by decide, by decide⟩
  | bool budget b => cases b <;> exact ⟨_, _, rfl, rfl, by decide, by decide⟩
  | number budget raw text =>
    obtain ⟨c, rest, hchars, hc⟩ := text.head
    have hskip : (c == ' ' || c == '\t' || c == '\n' || c == '\r') = false := by
      rcases hc with rfl | hdigit
      · decide
      · by_contra hws
        simp only [Bool.not_eq_false, Bool.or_eq_true, beq_iff_eq] at hws
        rcases hws with ((rfl | rfl) | rfl) | rfl <;> exact absurd hdigit (by decide)
    refine ⟨c, rest, hchars, ?_, ?_, ?_⟩
    · simp only [stringify, hchars, skipWs, List.dropWhile_cons, hskip]
      rfl
    · rintro rfl
      rcases hc with hc | hc <;> exact absurd hc (by decide)
    · rintro rfl
      rcases hc with hc | hc <;> exact absurd hc (by decide)
  | str budget s =>
    rw [stringify, toList_quote]
    exact ⟨'"', _, rfl, rfl, by decide, by decide⟩
  | array => exact ⟨'[', _, by rw [stringify, String.append_assoc, String.toList_append]; rfl, by
      rw [stringify, String.append_assoc, String.toList_append]; rfl, by decide, by decide⟩
  | object => exact ⟨'\x7b', _, by rw [stringify, String.append_assoc, String.toList_append]; rfl, by
      rw [stringify, String.append_assoc, String.toList_append]; rfl, by decide, by decide⟩

/-- A reader of values that reads this value from this text. -/
def ReadsAs (value : List Char → Except String (JsonVal × List Char)) (text : String) (v : JsonVal) : Prop :=
  ∀ rest, Stops rest → value (text.toList ++ rest) = .ok (v, rest)

theorem parseItems_stringify {value : List Char → Except String (JsonVal × List Char)} {items : List JsonVal}
    (hne : items ≠ []) (hvalue : ∀ item ∈ items, ReadsAs value (stringify item) item) {fuel : Nat} (hfuel : items.length ≤ fuel)
    (done : List JsonVal) (rest : List Char) :
    parseItems value fuel ((stringifyItems true items).toList ++ ']' :: rest) done =
      .ok (.array (done.reverse ++ items), rest) := by
  induction items generalizing fuel done with
  | nil => exact absurd rfl hne
  | cons item items ih =>
    obtain ⟨fuel, rfl⟩ : ∃ n, fuel = n + 1 := ⟨fuel - 1, by simp at hfuel; omega⟩
    have hitem := hvalue item List.mem_cons_self
    rw [stringifyItems_first, List.append_assoc, parseItems]
    cases items with
    | nil =>
      have hread := hitem (']' :: rest) (stops_cons (by decide))
      rw [stringifyItems, String.toList_empty, List.nil_append, hread, Result.ok_bind]
      simp [skipWs]
    | cons next items =>
      have hread := hitem (',' :: ((stringifyItems true (next :: items)).toList ++ ']' :: rest)) (stops_cons (by decide))
      have hmore := ih (by simp) (fun i hi => hvalue i (List.mem_cons_of_mem _ hi)) (by simpa using hfuel) (item :: done)
      rw [stringifyItems_comma, List.cons_append, hread, Result.ok_bind]
      simp only [skipWs, List.dropWhile_cons, Char.reduceBEq, Bool.or_self, Bool.false_eq_true, if_false]
      rw [hmore]
      simp

/-- The fields after all members are inserted; nothing when a key comes twice. -/
def insertMembers : List (String × JsonVal) → List (String × JsonVal) → Option (List (String × JsonVal))
  | fields, [] => some fields
  | fields, (key, value) :: rest => (insertField key value fields).bind fun fields => insertMembers fields rest

theorem insertMembers_sorted {fields members : List (String × JsonVal)}
    (h : ((fields ++ members).map Prod.fst).Pairwise (· < ·)) :
    insertMembers fields members = some (fields ++ members) := by
  induction members generalizing fields with
  | nil => simp [insertMembers]
  | cons member members ih =>
    obtain ⟨key, value⟩ := member
    have hlast : ∀ k ∈ fields.map Prod.fst, k < key := by
      intro k hk
      rw [List.map_append, List.pairwise_append] at h
      exact h.2.2 k hk key (by simp)
    have hrest := @ih (fields ++ [(key, value)]) (by simpa using h)
    rw [insertMembers, insertField_last hlast, Option.bind_some, hrest]
    simp

/-- A member of an object as it is written: its key, the text of its value and the value. -/
structure Member where
  key : String
  text : String
  val : JsonVal

def Member.field (m : Member) : String × JsonVal := (m.key, m.val)

/-- A field in its canonical text. -/
def Member.canonical (field : String × JsonVal) : Member := ⟨field.1, stringify field.2, field.2⟩

/-- Members as they are written between the braces. -/
def membersText : (first : Bool) → List Member → String
  | _, [] => ""
  | first, m :: members => (if first then "" else ",") ++ quote m.key ++ ":" ++ m.text ++ membersText false members

theorem stringifyFields_eq (first : Bool) (fields : List (String × JsonVal)) :
    stringifyFields first fields = membersText first (fields.map Member.canonical) := by
  induction fields generalizing first with
  | nil => rfl
  | cons field fields ih => rw [List.map_cons, membersText, stringifyFields, ih, Member.canonical]

theorem membersText_comma (m : Member) (members : List Member) :
    (membersText false (m :: members)).toList = ',' :: (membersText true (m :: members)).toList := by
  simp [membersText]

theorem membersText_first (m : Member) (members : List Member) :
    (membersText true (m :: members)).toList =
      (quote m.key).toList ++ ':' :: (m.text.toList ++ (membersText false members).toList) := by
  simp [membersText]

theorem length_le_membersText (members : List Member) : members.length ≤ (membersText false members).toList.length := by
  induction members with
  | nil => exact Nat.zero_le _
  | cons m members ih =>
    rw [membersText_comma, membersText_first]
    simp only [List.length_cons, List.length_append]
    omega

/-- Members are read in the order they are written, and sorted as they are read. -/
theorem parseFields_members {value : List Char → Except String (JsonVal × List Char)} {members : List Member}
    (hne : members ≠ []) (hvalue : ∀ m ∈ members, ReadsAs value m.text m.val) {fuel : Nat}
    (hfuel : members.length ≤ fuel) {fields out : List (String × JsonVal)}
    (hout : insertMembers fields (members.map Member.field) = some out) (rest : List Char) :
    parseFields value fuel ((membersText true members).toList ++ '\x7d' :: rest) fields = .ok (.object out, rest) := by
  induction members generalizing fields fuel with
  | nil => exact absurd rfl hne
  | cons m members ih =>
    obtain ⟨fuel, rfl⟩ : ∃ n, fuel = n + 1 := ⟨fuel - 1, by simp at hfuel; omega⟩
    obtain ⟨inserted, hinserted, hmore⟩ := Option.bind_eq_some_iff.1 hout
    have hval := hvalue m List.mem_cons_self
    rw [membersText_first, List.append_assoc, List.cons_append, List.append_assoc, parseFields, skipWs_quote,
      if_neg (by rw [head_quote]; simp), parseString_quote]
    simp only [Result.ok_bind, expectByte, skipWs, List.dropWhile_cons, Char.reduceBEq, Bool.or_self, Bool.false_eq_true,
      if_false, if_true]
    cases members with
    | nil =>
      cases hmore
      have hread := hval ('\x7d' :: rest) (stops_cons (by decide))
      rw [membersText, String.toList_empty, List.nil_append, hread]
      simp [hinserted]
    | cons next members =>
      have hread := hval (',' :: ((membersText true (next :: members)).toList ++ '\x7d' :: rest)) (stops_cons (by decide))
      have htail := ih (by simp) (fun m hm => hvalue m (List.mem_cons_of_mem _ hm)) (by simpa using hfuel) hmore
      rw [membersText_comma, List.cons_append, hread]
      simp only [Result.ok_bind, hinserted, List.dropWhile_cons, Char.reduceBEq, Bool.or_self, Bool.false_eq_true, if_false]
      exact htail

theorem parseLiteral_append (word : String) (value : JsonVal) (rest : List Char) :
    parseLiteral word value (word.toList ++ rest) = .ok (value, rest) := by
  unfold parseLiteral
  rw [if_pos (List.isPrefixOf_iff_prefix.2 (List.prefix_append _ _)), List.drop_left]

/-- The text of an object with these members. -/
def objectText (members : List Member) : String := "\x7b" ++ membersText true members ++ "\x7d"

/-- An object is read from its members, whatever their order. -/
theorem parseValue_members {budget : Nat} {members : List Member} {out : List (String × JsonVal)}
    (hvalue : ∀ m ∈ members, ReadsAs (parseValue budget) m.text m.val)
    (hout : insertMembers [] (members.map Member.field) = some out) :
    ReadsAs (parseValue (budget + 1)) (objectText members) (.object out) := by
  intro rest _
  have hchars : (objectText members).toList ++ rest = '\x7b' :: ((membersText true members).toList ++ '\x7d' :: rest) := by
    simp [objectText]
  rw [hchars, parseValue]
  cases members with
  | nil =>
    cases hout
    simp [membersText, skipWs]
  | cons m members =>
    have hlen := length_le_membersText members
    have hfuel : (m :: members).length ≤ ((membersText true (m :: members)).toList ++ '\x7d' :: rest).length + 1 := by
      rw [membersText_first]
      simp only [List.length_cons, List.length_append]
      omega
    have hread := parseFields_members (by simp) hvalue hfuel hout rest
    rw [membersText_first, toList_quote] at hread ⊢
    simp only [skipWs, List.cons_append, List.dropWhile_cons, Char.reduceBEq, Bool.or_self, Bool.false_eq_true, if_false]
      at hread ⊢
    exact hread

theorem parseValue_quote (budget : Nat) (s : String) (rest : List Char) :
    parseValue (budget + 1) ((quote s).toList ++ rest) = .ok (.str s, rest) := by
  have hstring := parseString_quote s rest
  rw [parseValue, skipWs_quote]
  rw [toList_quote] at hstring ⊢
  simp only [List.cons_append] at hstring ⊢
  rw [hstring]
  rfl

theorem parseValue_number (budget : Nat) {raw : String} (text : NumberText raw.toList) {rest : List Char}
    (hrest : Stops rest) : parseValue (budget + 1) (raw.toList ++ rest) = .ok (.number raw, rest) := by
  have hnumber := parseNumber_append text hrest
  have hstarts : Starts (raw.toList ++ rest) := (starts_stringify (.number 0 raw text)).append rest
  obtain ⟨c, tail, hchars, hc⟩ := text.head
  obtain ⟨-, -, -, hskip, -, -⟩ := hstarts
  rw [parseValue, hskip]
  rw [hchars, List.cons_append] at hnumber ⊢
  -- no other kind of value starts with a sign or a digit
  split
  · rename_i heq
    cases heq
    exact absurd hc (by decide)
  · rename_i heq
    cases heq
    exact absurd hc (by decide)
  · rename_i heq
    cases heq
    exact absurd hc (by decide)
  · rename_i heq
    cases heq
    exact absurd hc (by decide)
  · rename_i heq
    cases heq
    exact absurd hc (by decide)
  · rename_i heq
    cases heq
    exact absurd hc (by decide)
  · rename_i heq
    cases heq
    rw [if_pos hc, hnumber]
    rfl
  · rename_i heq
    exact nomatch heq

theorem parseValue_items {budget : Nat} {items : List JsonVal} (hreadable : ∀ item ∈ items, Readable budget item)
    (hvalue : ∀ item ∈ items, ReadsAs (parseValue budget) (stringify item) item) (rest : List Char) :
    parseValue (budget + 1) (("[" ++ stringifyItems true items ++ "]").toList ++ rest) = .ok (.array items, rest) := by
  have hchars : ("[" ++ stringifyItems true items ++ "]").toList ++ rest =
      '[' :: ((stringifyItems true items).toList ++ ']' :: rest) := by
    simp
  rw [hchars, parseValue]
  cases items with
  | nil => simp [stringifyItems, skipWs]
  | cons item items =>
    have hlen := length_le_stringifyItems items
    have hfuel : (item :: items).length ≤ ((stringifyItems true (item :: items)).toList ++ ']' :: rest).length + 1 := by
      rw [stringifyItems_first]
      simp only [List.length_cons, List.length_append]
      omega
    have hread := parseItems_stringify (by simp) hvalue hfuel [] rest
    have hstarts : Starts ((stringifyItems true (item :: items)).toList ++ ']' :: rest) := by
      rw [stringifyItems_first, List.append_assoc]
      exact (starts_stringify (hreadable item List.mem_cons_self)).append _
    obtain ⟨c, tail, htail, hskip, hbracket, -⟩ := hstarts
    have hopen : skipWs ('[' :: ((stringifyItems true (item :: items)).toList ++ ']' :: rest)) =
        '[' :: ((stringifyItems true (item :: items)).toList ++ ']' :: rest) := rfl
    simp only [hopen, hskip]
    rw [htail] at hread ⊢
    split
    · rename_i heq
      exact absurd (List.cons.inj heq).1 hbracket
    · exact hread

/-- A readable value is read back from its canonical text. -/
theorem parseValue_stringify {budget : Nat} {v : JsonVal} (h : Readable budget v) :
    ReadsAs (parseValue budget) (stringify v) v := by
  induction h with
  | null budget =>
    intro rest _
    exact parseLiteral_append "null" .null rest
  | bool budget b =>
    intro rest _
    cases b
    · exact parseLiteral_append "false" (.bool false) rest
    · exact parseLiteral_append "true" (.bool true) rest
  | number budget raw text =>
    intro rest hrest
    exact parseValue_number budget text hrest
  | str budget s =>
    intro rest _
    exact parseValue_quote budget s rest
  | array budget items readable ih =>
    intro rest _
    exact parseValue_items readable ih rest
  | object budget fields keys readable ih =>
    have htext : stringify (.object fields) = objectText (fields.map Member.canonical) := by
      rw [stringify, stringifyFields_eq, objectText]
    rw [htext]
    apply parseValue_members
    · intro m hm
      obtain ⟨field, hfield, rfl⟩ := List.mem_map.1 hm
      exact ih field hfield
    · have hfields : (fields.map Member.canonical).map Member.field = fields := by
        rw [List.map_map]
        exact List.map_id fields
      rw [hfields]
      exact insertMembers_sorted keys

/-! ### Texts -/

/-- Parses one top-level string literal. -/
def parseStringLiteral (text : String) : Except DomainError String :=
  match parseString (skipWs text.toList) with
  | .error message => .error (.json message)
  | .ok (value, rest) =>
    if skipWs rest = [] then .ok value else .error (.json "trailing characters after JSON string")

theorem parse_eq_ok {text : String} {v : JsonVal} (h : parse text = .ok v) : Readable 17 v := by
  unfold parse at h
  split at h
  · exact nomatch h
  · rename_i value rest hvalue
    split at h
    · cases h
      exact parseValue_readable hvalue
    · exact nomatch h

theorem parse_of_readsAs {text : String} {v : JsonVal} (h : ReadsAs (parseValue 17) text v) : parse text = .ok v := by
  have hread := h [] stops_nil
  rw [List.append_nil] at hread
  unfold parse
  rw [hread]
  rfl

theorem parseStringLiteral_quote (s : String) : parseStringLiteral (quote s) = .ok s := by
  have hstring := parseString_quote s []
  have hskip := skipWs_quote s []
  rw [List.append_nil] at hstring hskip
  unfold parseStringLiteral
  rw [hskip, hstring]
  rfl

/-- The text substrate reads back what it writes. -/
structure SubstrateRoundTrip : Prop where
  value : ∀ text v, parse text = .ok v → parse (stringify v) = .ok v
  literal : ∀ s, parseStringLiteral (quote s) = .ok s
  printable : ∀ s, ∀ b ∈ TextCodec.utf8Bytes (quote s), 0x20 ≤ b.toNat

theorem substrate_round_trip : SubstrateRoundTrip where
  value _ _ h := parse_of_readsAs (parseValue_stringify (parse_eq_ok h))
  literal := parseStringLiteral_quote
  printable s b hb := by
    by_contra hlow
    have hascii : b.toNat < 128 := by omega
    have hchar := le_of_mem_quote ((TextCodec.mem_utf8Bytes hascii).1 hb)
    rw [TextCodec.toNat_ofNat_ascii hascii] at hchar
    omega

end Verdant.Json
