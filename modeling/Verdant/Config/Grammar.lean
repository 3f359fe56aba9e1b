import Verdant.Config.Parse

/-!
# The configuration grammar

What a line may be, without the way it is read: nothing, a comment, or a key with a quoted or a bare value.  The parser
accepts these lines with distinct keys and no others, reports the first line that is not one of them, and gives back what
was written (`parseKv_exact`).
-/

namespace Verdant.Config

open TextCodec

/-! ### Values -/

/-- The text between the quotes and what it stands for. -/
inductive Escaped : List Char → List Char → Prop where
  | nil : Escaped [] []
  | plain {c : Char} {body value : List Char} (hquote : c ≠ '"') (hslash : c ≠ '\\') (h : Escaped body value) :
      Escaped (c :: body) (c :: value)
  | escape {c d : Char} {body value : List Char} (hescaped : escaped c = some d) (h : Escaped body value) :
      Escaped ('\\' :: c :: body) (d :: value)

theorem quotedFrom_of_escaped {body value : List Char} (h : Escaped body value) (tail out : List Char) :
    quotedFrom (body ++ '"' :: tail) out = .ok (out ++ value, tail) := by
  induction h generalizing out with
  | nil =>
    rw [List.nil_append, List.append_nil, quotedFrom]
    · exact if_pos rfl
    · exact fun h => absurd h (by decide)
    · exact fun _ _ h => absurd h (by decide)
  | @plain c body value hquote hslash _ ih =>
    rw [List.cons_append, quotedFrom, if_neg hquote, ih, List.append_assoc, List.singleton_append]
    · exact fun h => absurd h hslash
    · exact fun _ _ h => absurd h hslash
  | @escape c d body value hescaped _ ih =>
    rw [List.cons_append, List.cons_append, quotedFrom]
    simp only [hescaped]
    rw [ih, List.append_assoc, List.singleton_append]

theorem escaped_of_quotedFrom {cs out out' tail : List Char} (h : quotedFrom cs out = .ok (out', tail)) :
    ∃ body value, cs = body ++ '"' :: tail ∧ Escaped body value ∧ out' = out ++ value := by
  fun_induction quotedFrom cs out with
  | case1 => exact nomatch h
  | case2 => exact nomatch h
  | case3 c cs out d hescaped ih =>
    obtain ⟨body, value, rfl, hbody, rfl⟩ := ih h
    exact ⟨'\\' :: c :: body, d :: value, rfl, .escape hescaped hbody, by rw [List.append_assoc]; rfl⟩
  | case4 => exact nomatch h
  | case5 cs out hlone hpair =>
    obtain ⟨rfl, rfl⟩ := Prod.mk.inj (Except.ok.inj h)
    exact ⟨[], [], rfl, .nil, (List.append_nil _).symm⟩
  | case6 c cs out hlone hpair hquote ih =>
    obtain ⟨body, value, rfl, hbody, rfl⟩ := ih h
    refine ⟨c :: body, c :: value, rfl, .plain hquote ?_ hbody, by rw [List.append_assoc]; rfl⟩
    rintro rfl
    rcases hrest : body ++ '"' :: tail with _ | ⟨d, rest⟩
    · exact absurd hrest (by simp)
    · exact hpair d rest rfl hrest

/-- A value as it may stand after the equals sign. -/
inductive ValueOf : List Char → List Char → Bool → Prop where
  | quoted {body value tail : List Char} (hbody : Escaped body value)
      (htail : trim tail = [] ∨ (trim tail).head? = some '#') : ValueOf ('"' :: (body ++ '"' :: tail)) value true
  | bare {rest : List Char} (hdouble : rest.head? ≠ some '"') (hsingle : rest.head? ≠ some '\'')
      (htoken : trim (rest.takeWhile (· ≠ '#')) ≠ []) : ValueOf rest (trim (rest.takeWhile (· ≠ '#'))) false

theorem utf8Size_quote : '"'.utf8Size = 1 := rfl

/-- The tail of a quoted value is where the closing quote was. -/
theorem parseValue_quoted (body tail : List Char) {value : List Char} (h : Escaped body value) (line : Nat) :
    parseValue ('"' :: (body ++ '"' :: tail)) line =
      if trim tail ≠ [] ∧ (trim tail).head? ≠ some '#' then some (.error (.parse line "trailing characters after value"))
      else some (.ok ⟨line, String.ofList value, true⟩) := by
  have hfirst : sliceFrom 1 ('"' :: (body ++ '"' :: tail)) = some (body ++ '"' :: tail) := sliceFrom_append ['"'] _
  have hwhole : '"' :: (body ++ '"' :: tail) = ('"' :: (body ++ ['"'])) ++ tail := by simp
  have hplace : byteLength ('"' :: (body ++ '"' :: tail)) - byteLength tail = byteLength ('"' :: (body ++ ['"'])) := by
    rw [hwhole, byteLength_append, Nat.add_sub_cancel]
  have htail : sliceFrom (byteLength ('"' :: (body ++ '"' :: tail)) - byteLength tail) ('"' :: (body ++ '"' :: tail)) =
      some tail := by
    rw [hplace, hwhole]
    exact sliceFrom_append _ _
  have hle : ¬ byteLength ('"' :: (body ++ '"' :: tail)) < byteLength tail := by
    rw [hwhole, byteLength_append]
    omega
  unfold parseValue
  rw [List.head?_cons, if_pos rfl, hfirst, Option.bind_eq_bind, Option.bind_some, quotedFrom_of_escaped h, List.nil_append]
  simp only
  rw [if_neg hle, htail, Option.bind_some]

theorem parseValue_eq_ok {rest : List Char} {line : Nat} {entry : Entry} :
    parseValue rest line = some (.ok entry) ↔
      ∃ value quoted, ValueOf rest value quoted ∧ entry = ⟨line, String.ofList value, quoted⟩ := by
  constructor
  · intro h
    by_cases hdouble : rest.head? = some '"'
    · obtain ⟨cs, rfl⟩ := List.head?_eq_some_iff.1 hdouble
      have hfirst : sliceFrom 1 ('"' :: cs) = some cs := sliceFrom_append ['"'] cs
      cases hquoted : quotedFrom cs [] with
      | error message =>
        unfold parseValue at h
        rw [List.head?_cons, if_pos rfl, hfirst, Option.bind_eq_bind, Option.bind_some, hquoted] at h
        exact nomatch h
      | ok result =>
        obtain ⟨out, left⟩ := result
        obtain ⟨body, value, rfl, hbody, -⟩ := escaped_of_quotedFrom hquoted
        rw [parseValue_quoted body left hbody] at h
        split at h
        · exact nomatch h
        · rename_i htail
          obtain rfl := Except.ok.inj (Option.some.inj h)
          refine ⟨value, true, .quoted hbody ?_, rfl⟩
          by_cases hempty : trim left = []
          · exact .inl hempty
          · exact .inr (not_not.1 fun hhash => htail ⟨hempty, hhash⟩)
    · unfold parseValue at h
      rw [if_neg hdouble] at h
      split at h
      · exact nomatch h
      · rename_i hsingle
        dsimp only at h
        split at h
        · exact nomatch h
        · rename_i htoken
          obtain rfl := Except.ok.inj (Option.some.inj h)
          exact ⟨_, false, .bare hdouble hsingle htoken, rfl⟩
  · rintro ⟨value, quoted, hvalue, rfl⟩
    cases hvalue with
    | quoted hbody htail =>
      rw [parseValue_quoted _ _ hbody, if_neg]
      rintro ⟨hempty, hhash⟩
      exact htail.elim hempty hhash
    | bare hdouble hsingle htoken =>
      unfold parseValue
      rw [if_neg hdouble, if_neg hsingle]
      exact if_neg htoken

/-- A value is read without stopping, and a refusal is of its line. -/
theorem parseValue_total (rest : List Char) (line : Nat) : ∃ result, parseValue rest line = some result ∧
    ∀ error, result = .error error → ∃ message, error = .parse line message := by
  by_cases hdouble : rest.head? = some '"'
  · obtain ⟨cs, rfl⟩ := List.head?_eq_some_iff.1 hdouble
    cases hquoted : quotedFrom cs [] with
    | error message =>
      have hfirst : sliceFrom 1 ('"' :: cs) = some cs := sliceFrom_append ['"'] cs
      refine ⟨.error (.parse line message), ?_, fun error herror => ⟨message, (Except.error.inj herror).symm⟩⟩
      unfold parseValue
      rw [List.head?_cons, if_pos rfl, hfirst, Option.bind_eq_bind, Option.bind_some, hquoted]
    | ok result =>
      obtain ⟨out, left⟩ := result
      obtain ⟨body, value, rfl, hbody, -⟩ := escaped_of_quotedFrom hquoted
      rw [parseValue_quoted body left hbody]
      split
      · exact ⟨_, rfl, fun error herror => ⟨_, (Except.error.inj herror).symm⟩⟩
      · exact ⟨_, rfl, fun error herror => nomatch herror⟩
  · unfold parseValue
    rw [if_neg hdouble]
    split
    · exact ⟨_, rfl, fun error herror => ⟨_, (Except.error.inj herror).symm⟩⟩
    · dsimp only
      split
      · exact ⟨_, rfl, fun error herror => ⟨_, (Except.error.inj herror).symm⟩⟩
      · exact ⟨_, rfl, fun error herror => nomatch herror⟩

/-! ### Lines -/

/-- An accepted line, and the entry in it. -/
inductive LineOf (raw : List Char) : Option (List Char × List Char × Bool) → Prop where
  | blank (h : Blank raw) : LineOf raw none
  | comment (h : (trim raw).head? = some '#') : LineOf raw none
  | entry {before after value : List Char} {quoted : Bool} (hraw : raw = before ++ '=' :: after)
      (hkey : ValidKey (trim before)) (hvalue : ValueOf (trim after) value quoted) :
      LineOf raw (some (trim before, value, quoted))

theorem notMem_of_validKey {key : List Char} (h : ValidKey key) {c : Char} (hc : isKeyChar c = false) : c ∉ key := by
  intro hmem
  have hkey := List.all_eq_true.1 h.2 c hmem
  rw [hc] at hkey
  exact Bool.false_ne_true hkey

/-- The first equals sign is the one after the key. -/
theorem notMem_before {before : List Char} (h : ValidKey (trim before)) : '=' ∉ before := by
  obtain ⟨w, w', hw, hw', hbefore⟩ := exists_trim before
  rw [hbefore]
  simp only [List.mem_append, not_or]
  have hspace : ∀ w : List Char, Blank w → '=' ∉ w := fun w hw hmem => absurd (hw '=' hmem) (by decide)
  exact ⟨⟨hspace w hw, notMem_of_validKey h (by decide)⟩, hspace w' hw'⟩

theorem trim_entry (before after : List Char) :
    trim (before ++ '=' :: after) = before.dropWhile isWhitespace ++ '=' :: after.rdropWhile isWhitespace :=
  trim_append_cons (by decide) before after

/-- A line with a key begins with it. -/
theorem head?_entry {before : List Char} (h : ValidKey (trim before)) (after : List Char) :
    ∃ c, (trim (before ++ '=' :: after)).head? = some c ∧ isKeyChar c = true := by
  obtain ⟨c, cs, hcs⟩ := List.exists_cons_of_ne_nil h.1
  have hkey := List.all_eq_true.1 h.2 c (by rw [hcs]; exact List.mem_cons_self)
  have hprefix : trim before <+: before.dropWhile isWhitespace := List.rdropWhile_prefix _ _
  obtain ⟨rest, hrest⟩ := hprefix
  refine ⟨c, ?_, hkey⟩
  rw [trim_entry, ← hrest, hcs]
  rfl

/-- What a line with an equals sign is read as. -/
theorem parseLine_entry {before after : List Char} (line : Nat) (entries : Entries) (hbefore : '=' ∉ before)
    (hhash : (trim (before ++ '=' :: after)).head? ≠ some '#')
    (hsection : (trim (before ++ '=' :: after)).head? ≠ some '[') :
    parseLine line entries (before ++ '=' :: after) =
      if ¬ ValidKey (trim before) then
        some (.error (.parse line ("invalid key '" ++ String.ofList (trim before) ++ "'")))
      else (parseValue (trim after) line).bind fun
        | .error error => some (.error error)
        | .ok entry =>
          if String.ofList (trim before) ∈ entries.keys then
            some (.error (.parse line ("duplicate key '" ++ String.ofList (trim before) ++ "'")))
          else some (.ok (entries ++ [(String.ofList (trim before), entry)])) := by
  have hfront : '=' ∉ before.dropWhile isWhitespace := fun h => hbefore ((List.dropWhile_suffix _).subset h)
  have hempty : trim (before ++ '=' :: after) ≠ [] := by
    rw [trim_entry]
    simp
  have hfind : findByte '=' (trim (before ++ '=' :: after)) = some (byteLength (before.dropWhile isWhitespace)) := by
    rw [trim_entry, findByte_append hfront]
  have hto : sliceTo (byteLength (before.dropWhile isWhitespace)) (trim (before ++ '=' :: after)) =
      some (before.dropWhile isWhitespace) := by
    rw [trim_entry, sliceTo_append]
  have hfrom : sliceFrom (byteLength (before.dropWhile isWhitespace) + 1) (trim (before ++ '=' :: after)) =
      some (after.rdropWhile isWhitespace) := by
    have hplace : byteLength (before.dropWhile isWhitespace) + 1 = byteLength (before.dropWhile isWhitespace ++ ['=']) := by
      rw [byteLength_append]
      rfl
    have hcut : trim (before ++ '=' :: after) =
        (before.dropWhile isWhitespace ++ ['=']) ++ after.rdropWhile isWhitespace := by
      rw [trim_entry, List.append_assoc, List.singleton_append]
    rw [hplace, hcut, sliceFrom_append]
  unfold parseLine
  dsimp only
  rw [if_neg (not_or.2 ⟨hempty, hhash⟩), if_neg hsection, hfind]
  dsimp only
  rw [hto, Option.bind_eq_bind, Option.bind_some, trim_dropWhile, hfrom, Option.bind_eq_bind, Option.bind_some,
    trim_rdropWhile] <;> rfl

theorem parseLine_blank {raw : List Char} (line : Nat) (entries : Entries)
    (h : trim raw = [] ∨ (trim raw).head? = some '#') : parseLine line entries raw = some (.ok entries) := by
  unfold parseLine
  dsimp only
  rw [if_pos h]

/-- Every line is one of these. -/
theorem line_cases (raw : List Char) : (trim raw = [] ∨ (trim raw).head? = some '#') ∨
    (trim raw).head? = some '[' ∨ (trim raw ≠ [] ∧ (trim raw).head? ≠ some '#' ∧ (trim raw).head? ≠ some '[') ∧
      ('=' ∉ trim raw ∨ ∃ before after, raw = before ++ '=' :: after ∧ '=' ∉ before) := by
  by_cases hblank : trim raw = [] ∨ (trim raw).head? = some '#'
  · exact .inl hblank
  · by_cases hsection : (trim raw).head? = some '['
    · exact .inr (.inl hsection)
    · rw [not_or] at hblank
      refine .inr (.inr ⟨⟨hblank.1, hblank.2, hsection⟩, ?_⟩)
      by_cases hequals : '=' ∈ raw
      · obtain ⟨before, after, hraw, hbefore⟩ := List.eq_append_cons_of_mem hequals
        exact .inr ⟨before, after, hraw, hbefore⟩
      · refine .inl fun hmem => hequals ?_
        obtain ⟨w, w', -, -, hraw⟩ := exists_trim raw
        rw [hraw]
        exact List.mem_append_left _ (List.mem_append_right _ hmem)

/-- A line in brackets is refused, and the name in them is there to be read. -/
theorem parseLine_section {raw : List Char} (line : Nat) (entries : Entries) (h : (trim raw).head? = some '[') :
    ∃ error, parseLine line entries raw = some (.error error) ∧ ∀ n message, error = .parse n message → n = line := by
  have hblank : ¬ (trim raw = [] ∨ (trim raw).head? = some '#') := by
    rw [not_or]
    constructor
    · intro hempty
      rw [hempty] at h
      exact nomatch h
    · rw [h]
      decide
  unfold parseLine
  dsimp only
  rw [if_neg hblank, if_pos h]
  by_cases hclosed : (trim raw).getLast? = some ']'
  · rw [if_pos hclosed]
    obtain ⟨inside, hinside⟩ := List.getLast?_eq_some_iff.1 hclosed
    obtain ⟨name, rfl⟩ : ∃ name, inside = '[' :: name := by
      rw [hinside] at h
      cases inside with
      | nil => exact absurd h (by decide)
      | cons c name =>
        obtain rfl := Option.some.inj h
        exact ⟨name, rfl⟩
    have hplace : byteLength (trim raw) - 1 = byteLength ('[' :: name) := by
      have hone : byteLength [']'] = 1 := rfl
      rw [hinside, byteLength_append, hone, Nat.add_sub_cancel]
    have hto : sliceTo (byteLength (trim raw) - 1) (trim raw) = some ('[' :: name) := by
      rw [hplace]
      conv_lhs => rw [hinside]
      exact sliceTo_append _ _
    have hfrom : sliceFrom 1 ('[' :: name) = some name := sliceFrom_append ['['] name
    rw [hto, Option.bind_eq_bind, Option.bind_some, hfrom, Option.bind_some]
    refine ⟨_, rfl, fun n message herror => ?_⟩
    unfold sectionError at herror
    split at herror
    · exact nomatch herror
    · split at herror <;> exact nomatch herror
  · rw [if_neg hclosed]
    exact ⟨_, rfl, fun n message herror => (ConfigError.parse.inj herror).1.symm⟩

theorem parseLine_no_equals {raw : List Char} (line : Nat) (entries : Entries)
    (h : trim raw ≠ [] ∧ (trim raw).head? ≠ some '#' ∧ (trim raw).head? ≠ some '[') (hequals : '=' ∉ trim raw) :
    parseLine line entries raw = some (.error (.parse line "expected 'key = value'")) := by
  have hfind : findByte '=' (trim raw) = none := by
    cases hfound : findByte '=' (trim raw) with
    | none => rfl
    | some n =>
      obtain ⟨front, back, htrim, -, -⟩ := findByte_eq_some hfound
      exact absurd (by rw [htrim]; simp) hequals
  unfold parseLine
  dsimp only
  rw [if_neg (not_or.2 ⟨h.1, h.2.1⟩), if_neg h.2.2, hfind]

/-- A line is read without stopping, and a refusal with a number has its own. -/
theorem parseLine_total (line : Nat) (entries : Entries) (raw : List Char) :
    ∃ result, parseLine line entries raw = some result ∧ ∀ n message, result = .error (.parse n message) → n = line := by
  rcases line_cases raw with hblank | hsection | ⟨hplain, hequals | ⟨before, after, rfl, hbefore⟩⟩
  · exact ⟨_, parseLine_blank line entries hblank, fun n message herror => nomatch herror⟩
  · obtain ⟨error, herror, hline⟩ := parseLine_section line entries hsection
    exact ⟨_, herror, fun n message h => hline n message (Except.error.inj h)⟩
  · exact ⟨_, parseLine_no_equals line entries hplain hequals,
      fun n message h => (ConfigError.parse.inj (Except.error.inj h)).1.symm⟩
  · rw [parseLine_entry line entries hbefore hplain.2.1 hplain.2.2]
    by_cases hkey : ValidKey (trim before)
    · obtain ⟨result, hvalue, herror⟩ := parseValue_total (trim after) line
      rw [if_neg (not_not.2 hkey), hvalue, Option.bind_some]
      cases result with
      | error error =>
        obtain ⟨message', rfl⟩ := herror error rfl
        exact ⟨_, rfl, fun n message h => (ConfigError.parse.inj (Except.error.inj h)).1.symm⟩
      | ok entry =>
        dsimp only
        split
        · exact ⟨_, rfl, fun n message h => (ConfigError.parse.inj (Except.error.inj h)).1.symm⟩
        · exact ⟨_, rfl, fun n message h => nomatch h⟩
    · rw [if_pos hkey]
      exact ⟨_, rfl, fun n message h => (ConfigError.parse.inj (Except.error.inj h)).1.symm⟩

/-- What one accepted line adds. -/
inductive Adds (line : Nat) (entries : Entries) (raw : List Char) : Entries → Prop where
  | nothing (h : LineOf raw none) : Adds line entries raw entries
  | entry {key value : List Char} {quoted : Bool} (h : LineOf raw (some (key, value, quoted)))
      (hnew : String.ofList key ∉ entries.keys) :
      Adds line entries raw (entries ++ [(String.ofList key, ⟨line, String.ofList value, quoted⟩)])

theorem parseLine_eq_ok {line : Nat} {entries after : Entries} {raw : List Char} :
    parseLine line entries raw = some (.ok after) ↔ Adds line entries raw after := by
  constructor
  · intro h
    rcases line_cases raw with hblank | hsection | ⟨hplain, hequals | ⟨before, rest, rfl, hbefore⟩⟩
    · rw [parseLine_blank line entries hblank] at h
      obtain rfl := Except.ok.inj (Option.some.inj h)
      refine .nothing ?_
      rcases hblank with hempty | hhash
      · exact .blank (trim_eq_nil.1 hempty)
      · exact .comment hhash
    · obtain ⟨error, herror, -⟩ := parseLine_section line entries hsection
      rw [herror] at h
      exact nomatch h
    · rw [parseLine_no_equals line entries hplain hequals] at h
      exact nomatch h
    · rw [parseLine_entry line entries hbefore hplain.2.1 hplain.2.2] at h
      by_cases hkey : ValidKey (trim before)
      · rw [if_neg (not_not.2 hkey)] at h
        obtain ⟨result, hvalue, hrest⟩ := Option.bind_eq_some_iff.1 h
        cases result with
        | error error => exact nomatch hrest
        | ok entry =>
          obtain ⟨value, quoted, hof, rfl⟩ := parseValue_eq_ok.1 hvalue
          dsimp only at hrest
          split at hrest
          · exact nomatch hrest
          · rename_i hnew
            obtain rfl := Except.ok.inj (Option.some.inj hrest)
            exact .entry (.entry rfl hkey hof) hnew
      · rw [if_pos hkey] at h
        exact nomatch h
  · intro h
    cases h with
    | nothing h =>
      cases h with
      | blank h => exact parseLine_blank line entries (.inl (trim_eq_nil.2 h))
      | comment h => exact parseLine_blank line entries (.inr h)
    | entry h hnew =>
      cases h with
      | @entry before rest _ _ hraw hkey hvalue =>
        obtain ⟨c, hhead, hc⟩ := head?_entry hkey rest
        have hother : ∀ d, isKeyChar d = false → (trim (before ++ '=' :: rest)).head? ≠ some d := by
          intro d hd hsame
          rw [hhead] at hsame
          obtain rfl := Option.some.inj hsame
          exact Bool.false_ne_true (hd.symm.trans hc)
        rw [hraw, parseLine_entry line entries (notMem_before hkey) (hother '#' (by decide)) (hother '[' (by decide)),
          if_neg (not_not.2 hkey), parseValue_eq_ok.2 ⟨_, _, hvalue, rfl⟩, Option.bind_some]
        exact if_neg hnew

end Verdant.Config
