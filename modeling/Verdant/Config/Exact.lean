import Verdant.Config.Grammar

/-!
# The configuration parser is exact

A text is its lines one after another: it is accepted with the entries of its lines when their keys are distinct, or refused
with the error of the first line that is not accepted after those before it.  What is written with escapes is read back,
whatever blank lines, comments and white space stand around it (`parseKv_exact`).
-/

namespace Verdant.Config

open TextCodec

abbrev LineItem := Option (List Char × List Char × Bool)

/-- The entries of lines, from a line number on. -/
def numbered : Nat → List LineItem → Entries
  | _, [] => []
  | line, none :: rest => numbered (line + 1) rest
  | line, some (key, value, quoted) :: rest =>
    (String.ofList key, ⟨line, String.ofList value, quoted⟩) :: numbered (line + 1) rest

theorem numbered_append (line : Nat) (items more : List LineItem) :
    numbered line (items ++ more) = numbered line items ++ numbered (line + items.length) more := by
  induction items generalizing line with
  | nil => rfl
  | cons item items ih =>
    have hnext : line + 1 + items.length = line + (item :: items).length := by
      rw [List.length_cons]
      omega
    rcases item with _ | ⟨key, value, quoted⟩
    · rw [List.cons_append, numbered, numbered, ih, hnext]
    · rw [List.cons_append, numbered, numbered, ih, hnext, List.cons_append]

/-- Lines that are accepted, with their items. -/
def Accepted (lines : List (List Char)) (items : List LineItem) : Prop :=
  List.Forall₂ LineOf lines items ∧ (numbered 1 items).keys.Nodup

theorem keys_append (entries more : Entries) : Entries.keys (entries ++ more) = entries.keys ++ more.keys := List.map_append

/-- A run over lines adds one item for each. -/
theorem parseLines_eq_ok {line : Nat} {entries after : Entries} {lines : List (List Char)} (hentries : entries.keys.Nodup) :
    parseLines line entries lines = some (.ok after) ↔ ∃ items, List.Forall₂ LineOf lines items ∧
      (entries ++ numbered line items).keys.Nodup ∧ after = entries ++ numbered line items := by
  induction lines generalizing line entries with
  | nil =>
    rw [parseLines]
    constructor
    · intro h
      obtain rfl := Except.ok.inj (Option.some.inj h)
      exact ⟨[], .nil, by rw [numbered, List.append_nil]; exact hentries, (List.append_nil _).symm⟩
    · rintro ⟨items, hitems, -, rfl⟩
      cases hitems
      rw [numbered, List.append_nil]
  | cons raw lines ih =>
    rw [parseLines]
    constructor
    · intro h
      obtain ⟨result, hline, h⟩ := Option.bind_eq_some_iff.1 h
      cases result with
      | error error => exact nomatch h
      | ok next =>
        cases parseLine_eq_ok.1 hline with
        | nothing hraw =>
          obtain ⟨items, hitems, hnodup, hafter⟩ := (ih hentries).1 h
          exact ⟨none :: items, .cons hraw hitems, hnodup, hafter⟩
        | @entry key value quoted hraw hnew =>
          have hnext : Entries.keys (entries ++ [(String.ofList key, ⟨line, String.ofList value, quoted⟩)]) |>.Nodup := by
            rw [keys_append]
            exact List.nodup_append.2 ⟨hentries, List.nodup_singleton _, by
              intro a ha b hb
              rw [List.mem_singleton.1 hb]
              rintro rfl
              exact hnew ha⟩
          obtain ⟨items, hitems, hnodup, hafter⟩ := (ih hnext).1 h
          refine ⟨some (key, value, quoted) :: items, .cons hraw hitems, ?_, ?_⟩
          · rw [numbered, List.append_cons]
            exact hnodup
          · rw [numbered, List.append_cons]
            exact hafter
    · rintro ⟨items, hitems, hnodup, rfl⟩
      cases hitems with
      | @cons _ item _ items hraw hrest =>
        rcases item with _ | ⟨key, value, quoted⟩
        · refine Option.bind_eq_some_iff.2 ⟨_, parseLine_eq_ok.2 (.nothing hraw), ?_⟩
          exact (ih hentries).2 ⟨items, hrest, hnodup, rfl⟩
        · have hnumbered : entries ++ numbered line (some (key, value, quoted) :: items) =
              entries ++ [(String.ofList key, ⟨line, String.ofList value, quoted⟩)] ++ numbered (line + 1) items :=
            List.append_cons _ _ _
          have hsplit := hnodup
          rw [hnumbered, keys_append, keys_append] at hsplit
          have hfront := (List.nodup_append.1 hsplit).1
          have hnew : String.ofList key ∉ entries.keys := by
            intro hmem
            exact (List.nodup_append.1 hfront).2.2 _ hmem _ (List.mem_singleton_self _) rfl
          refine Option.bind_eq_some_iff.2 ⟨_, parseLine_eq_ok.2 (.entry hraw hnew), ?_⟩
          have hfront' : (Entries.keys (entries ++ [(String.ofList key, ⟨line, String.ofList value, quoted⟩)])).Nodup := by
            rw [keys_append]
            exact hfront
          exact (ih hfront').2 ⟨items, hrest, by rw [← hnumbered]; exact hnodup, hnumbered⟩

theorem parseLines_append {line : Nat} {entries middle : Entries} {front : List (List Char)}
    (h : parseLines line entries front = some (.ok middle)) (back : List (List Char)) :
    parseLines line entries (front ++ back) = parseLines (line + front.length) middle back := by
  induction front generalizing line entries with
  | nil =>
    obtain rfl := Except.ok.inj (Option.some.inj h)
    rfl
  | cons raw front ih =>
    rw [parseLines] at h
    obtain ⟨result, hline, h⟩ := Option.bind_eq_some_iff.1 h
    cases result with
    | error error => exact nomatch h
    | ok next =>
      have hplace : line + 1 + front.length = line + (raw :: front).length := by
        rw [List.length_cons]
        omega
      rw [List.cons_append, parseLines, hline, Option.bind_eq_bind, Option.bind_some, ← hplace]
      exact ih h

/-- A run never stops, and a refusal is that of the first refused line. -/
theorem parseLines_cases (line : Nat) (entries : Entries) (lines : List (List Char)) :
    (∃ after, parseLines line entries lines = some (.ok after)) ∨
      ∃ front raw back middle error, lines = front ++ raw :: back ∧
        parseLines line entries front = some (.ok middle) ∧
        parseLine (line + front.length) middle raw = some (.error error) ∧
        parseLines line entries lines = some (.error error) := by
  induction lines generalizing line entries with
  | nil => exact .inl ⟨entries, rfl⟩
  | cons raw lines ih =>
    obtain ⟨result, hline, -⟩ := parseLine_total line entries raw
    cases result with
    | error error =>
      refine .inr ⟨[], raw, lines, entries, error, rfl, rfl, hline, ?_⟩
      rw [parseLines, hline]
      rfl
    | ok next =>
      have hstep : ∀ lines, parseLines line entries (raw :: lines) = parseLines (line + 1) next lines := by
        intro lines
        rw [parseLines, hline]
        rfl
      rcases ih (line + 1) next with ⟨after, hafter⟩ | ⟨front, bad, back, middle, error, rfl, hfront, hbad, herror⟩
      · exact .inl ⟨after, (hstep lines).trans hafter⟩
      · refine .inr ⟨raw :: front, bad, back, middle, error, rfl, (hstep front).trans hfront, ?_, (hstep _).trans herror⟩
        have hplace : line + 1 + front.length = line + (raw :: front).length := by
          rw [List.length_cons]
          omega
        rw [← hplace]
        exact hbad

/-! ### What is written -/

def escape : Char → List Char
  | '\\' => ['\\', '\\']
  | '"' => ['\\', '"']
  | '\n' => ['\\', 'n']
  | '\t' => ['\\', 't']
  | '\r' => ['\\', 'r']
  | c => [c]

def quoteValue (value : List Char) : List Char := '"' :: (value.flatMap escape ++ ['"'])

theorem escaped_flatMap (value : List Char) : Escaped (value.flatMap escape) value := by
  induction value with
  | nil => exact .nil
  | cons c value ih =>
    rw [List.flatMap_cons]
    unfold escape
    split
    · exact .escape rfl ih
    · exact .escape rfl ih
    · exact .escape rfl ih
    · exact .escape rfl ih
    · exact .escape rfl ih
    · rename_i hslash hquote _ _ _
      exact .plain hquote hslash ih

theorem notMem_escape (c : Char) : '\n' ∉ escape c := by
  unfold escape
  split
  · decide
  · decide
  · decide
  · decide
  · decide
  · rename_i hline _ _
    rw [List.mem_singleton]
    exact Ne.symm hline

theorem notMem_quoteValue (value : List Char) : '\n' ∉ quoteValue value := by
  unfold quoteValue
  rw [List.mem_cons, List.mem_append, List.mem_flatMap, not_or, not_or]
  refine ⟨by decide, ?_, by decide⟩
  rintro ⟨c, -, hc⟩
  exact notMem_escape c hc

/-- White space within a line. -/
def Space (w : List Char) : Prop := Blank w ∧ '\n' ∉ w

/-- Nothing, or a comment up to the end of the line. -/
def Comment (cs : List Char) : Prop := '\n' ∉ cs ∧ (cs = [] ∨ cs.head? = some '#')

/-- Lines that write entries, with blank lines, comment lines, white space and comments anywhere. -/
inductive Layout : List (String × String) → List (List Char) → Prop where
  | done : Layout [] []
  | filler {entries : List (String × String)} {lines : List (List Char)} {w comment : List Char} (hspace : Space w)
      (hcomment : Comment comment) (h : Layout entries lines) : Layout entries ((w ++ comment) :: lines)
  | entry {entries : List (String × String)} {lines : List (List Char)} {key value : String} {w₁ w₂ w₃ w₄ comment : List Char}
      (hkey : ValidKey key.toList) (h₁ : Space w₁) (h₂ : Space w₂) (h₃ : Space w₃) (h₄ : Space w₄)
      (hcomment : Comment comment) (h : Layout entries lines) :
      Layout ((key, value) :: entries)
        ((w₁ ++ key.toList ++ w₂ ++ '=' :: (w₃ ++ quoteValue value.toList ++ w₄ ++ comment)) :: lines)

/-- A text of lines; the last one may lack its end. -/
def Written (src : List Char) (lines : List (List Char)) : Prop :=
  src = Lines.unlines '\n' lines ∨ ∃ front last, lines = front ++ [last] ∧ src = Lines.unlines '\n' front ++ last

theorem space_of_key {c : Char} (h : isKeyChar c = true) : isWhitespace c = false := by
  by_contra hspace
  rw [Bool.not_eq_false] at hspace
  unfold isWhitespace at hspace
  simp only [decide_eq_true_eq] at hspace
  have hkey : c.toNat = 45 ∨ (48 ≤ c.toNat ∧ c.toNat ≤ 57) ∨ (65 ≤ c.toNat ∧ c.toNat ≤ 90) ∨ c.toNat = 95 ∨
      (97 ≤ c.toNat ∧ c.toNat ≤ 122) := by
    unfold isKeyChar Char.isAlphanum Char.isAlpha Char.isUpper Char.isLower Char.isDigit at h
    simp only [Bool.or_eq_true, Bool.and_eq_true, decide_eq_true_eq] at h
    rcases h with (((h | h) | h) | rfl) | rfl
    · exact .inr (.inr (.inl h))
    · exact .inr (.inr (.inr (.inr h)))
    · exact .inr (.inl h)
    · exact .inr (.inr (.inr (.inl rfl)))
    · exact .inl rfl
  omega

theorem trim_key {key w₁ w₂ : List Char} (hkey : ValidKey key) (h₁ : Blank w₁) (h₂ : Blank w₂) :
    trim (w₁ ++ key ++ w₂) = key := by
  have hall : ∀ c ∈ key, isWhitespace c = false := fun c hc => space_of_key (List.all_eq_true.1 hkey.2 c hc)
  rw [trim_append_blank h₂, trim_blank_append h₁]
  exact trim_eq_self (fun c hc => hall c (List.mem_of_mem_head? hc)) fun c hc => hall c (List.mem_of_mem_getLast? hc)

theorem trim_comment {w comment : List Char} (hspace : Blank w) (hcomment : Comment comment) :
    trim (w ++ comment) = [] ∨ (trim (w ++ comment)).head? = some '#' := by
  rw [trim_blank_append hspace]
  rcases hcomment.2 with rfl | hhash
  · exact .inl rfl
  · obtain ⟨rest, rfl⟩ := List.head?_eq_some_iff.1 hhash
    have hcut := trim_append_cons (c := '#') (by decide) [] rest
    rw [List.nil_append] at hcut
    rw [hcut]
    exact .inr rfl

/-- A written entry is an accepted line. -/
theorem lineOf_entry {key value : List Char} {w₁ w₂ w₃ w₄ comment : List Char} (hkey : ValidKey key) (h₁ : Blank w₁)
    (h₂ : Blank w₂) (h₃ : Blank w₃) (h₄ : Blank w₄) (hcomment : Comment comment) :
    LineOf (w₁ ++ key ++ w₂ ++ '=' :: (w₃ ++ quoteValue value ++ w₄ ++ comment)) (some (key, value, true)) := by
  have hbefore := trim_key hkey h₁ h₂
  have hafter : ∃ tail, trim (w₃ ++ quoteValue value ++ w₄ ++ comment) = '"' :: (value.flatMap escape ++ '"' :: tail) ∧
      (trim tail = [] ∨ (trim tail).head? = some '#') := by
    refine ⟨(w₄ ++ comment).rdropWhile isWhitespace, ?_, ?_⟩
    · have hwhole : w₃ ++ quoteValue value ++ w₄ ++ comment =
          w₃ ++ (('"' :: value.flatMap escape) ++ '"' :: (w₄ ++ comment)) := by
        simp [quoteValue, List.append_assoc]
      rw [hwhole, trim_blank_append h₃, trim_append_cons (by decide), List.dropWhile_cons_of_neg (by decide)]
      rfl
    · rw [trim_rdropWhile]
      exact trim_comment h₄ hcomment
  obtain ⟨tail, htrim, htail⟩ := hafter
  have hline : LineOf (w₁ ++ key ++ w₂ ++ '=' :: (w₃ ++ quoteValue value ++ w₄ ++ comment))
      (some (trim (w₁ ++ key ++ w₂), value, true)) :=
    .entry rfl (by rw [hbefore]; exact hkey) (by rw [htrim]; exact .quoted (escaped_flatMap value) htail)
  rw [hbefore] at hline
  exact hline

theorem Layout.lines {entries : List (String × String)} {lines : List (List Char)} (h : Layout entries lines) :
    (∀ line ∈ lines, '\n' ∉ line) ∧ ∃ items, List.Forall₂ LineOf lines items ∧
      ∀ line, (numbered line items).map (fun (key, held) => (key, held.value, held.quoted)) =
        entries.map fun (key, value) => (key, value, true) := by
  induction h with
  | done => exact ⟨fun line hline => (nomatch hline), [], .nil, fun _ => rfl⟩
  | @filler entries lines w comment hspace hcomment _ ih =>
    obtain ⟨hends, items, hitems, hentries⟩ := ih
    refine ⟨fun line hline => ?_, none :: items, .cons ?_ hitems, fun line => hentries (line + 1)⟩
    · rcases List.mem_cons.1 hline with rfl | hrest
      · rw [List.mem_append, not_or]
        exact ⟨hspace.2, hcomment.1⟩
      · exact hends line hrest
    · rcases trim_comment hspace.1 hcomment with hempty | hhash
      · exact .blank (trim_eq_nil.1 hempty)
      · exact .comment hhash
  | @entry entries lines key value w₁ w₂ w₃ w₄ comment hkey h₁ h₂ h₃ h₄ hcomment _ ih =>
    obtain ⟨hends, items, hitems, hentries⟩ := ih
    refine ⟨fun line hline => ?_, some (key.toList, value.toList, true) :: items,
      .cons (lineOf_entry hkey h₁.1 h₂.1 h₃.1 h₄.1 hcomment) hitems, fun line => ?_⟩
    · rcases List.mem_cons.1 hline with rfl | hrest
      · simp only [List.mem_append, List.mem_cons, not_or]
        exact ⟨⟨⟨h₁.2, notMem_of_validKey hkey (by decide)⟩, h₂.2⟩, by decide,
          ⟨⟨h₃.2, notMem_quoteValue _⟩, h₄.2⟩, hcomment.1⟩
      · exact hends line hrest
    · rw [numbered, List.map_cons, List.map_cons, hentries, String.ofList_toList, String.ofList_toList]

/-- Trimmed lines need no carriage returns. -/
theorem parseLines_stripReturn (line : Nat) (entries : Entries) (lines : List (List Char)) :
    parseLines line entries (lines.map stripReturn) = parseLines line entries lines := by
  induction lines generalizing line entries with
  | nil => rfl
  | cons raw lines ih =>
    have hline : parseLine line entries (stripReturn raw) = parseLine line entries raw := by
      unfold parseLine
      rw [trim_stripReturn]
    rw [List.map_cons, parseLines, parseLines, hline]
    simp only [ih]

theorem parseKv_written {src : List Char} {lines : List (List Char)} (hwritten : Written src lines)
    (hends : ∀ line ∈ lines, '\n' ∉ line) : parseKv src = parseLines 1 [] lines := by
  rcases hwritten with rfl | ⟨front, last, rfl, rfl⟩
  · rw [parseKv, textLines_unlines hends, parseLines_stripReturn]
  · have hfront : ∀ line ∈ front, '\n' ∉ line := fun line hline => hends line (List.mem_append_left _ hline)
    have hlast : '\n' ∉ last := hends last (List.mem_append_right _ (List.mem_singleton_self _))
    have hcut : Lines.cut '\n' (Lines.unlines '\n' front ++ last) = (front, last) := by
      rw [Lines.cut_append, Lines.cut_unlines hfront, List.nil_append, Lines.cut_unended hlast, List.append_nil]
    rw [parseKv, textLines, hcut]
    by_cases hempty : last = []
    · rw [if_pos hempty, List.append_nil, parseLines_stripReturn, hempty]
      rcases parseLines_cases 1 [] front with ⟨after, hafter⟩ | ⟨before, raw, back, middle, error, rfl, hbefore, hraw, herror⟩
      · have hblank : parseLine (1 + front.length) after [] = some (.ok after) := parseLine_blank _ _ (.inl rfl)
        rw [parseLines_append hafter, parseLines, hblank, hafter]
        rfl
      · rw [herror, List.append_assoc, List.cons_append, parseLines_append hbefore, parseLines, hraw]
        rfl
    · rw [if_neg hempty]
      have hsame := parseLines_stripReturn 1 [] (front ++ [last])
      rw [List.map_append, List.map_singleton] at hsame
      rcases parseLines_cases 1 [] front with ⟨after, hafter⟩ | ⟨before, raw, back, middle, error, rfl, hbefore, hraw, herror⟩
      · have hstripped := (parseLines_stripReturn 1 [] front).trans hafter
        rw [parseLines_append hstripped, parseLines_append hafter, List.length_map]
      · have hstripped := (parseLines_stripReturn 1 [] before).trans hbefore
        have hline : parseLine (1 + before.length) middle (stripReturn raw) = some (.error error) := by
          rw [← hraw]
          unfold parseLine
          rw [trim_stripReturn]
        rw [List.map_append, List.map_cons, List.append_assoc, List.append_assoc, List.cons_append, List.cons_append,
          parseLines_append hstripped, parseLines_append hbefore, parseLines, parseLines, List.length_map, hline, hraw]
        rfl

/-- The parser accepts its grammar, blames the first refused line, and reads back what is written. -/
theorem parseKv_exact :
    (∀ src, ∃ result, parseKv src = some result) ∧
      (∀ (entries : List (String × String)) (lines : List (List Char)) (src : List Char), Layout entries lines →
        (entries.map Prod.fst).Nodup → Written src lines → ∃ after, parseKv src = some (.ok after) ∧
          after.map (fun (key, entry) => (key, entry.value, entry.quoted)) =
            entries.map fun (key, value) => (key, value, true)) ∧
      (∀ src after, parseKv src = some (.ok after) ↔ ∃ items, Accepted (textLines src) items ∧ after = numbered 1 items) ∧
      ∀ src error, parseKv src = some (.error error) → ∃ front raw back, textLines src = front ++ raw :: back ∧
        (∃ items, Accepted front items) ∧ (¬ ∃ items, Accepted (front ++ [raw]) items) ∧
        (∀ src' back', textLines src' = front ++ raw :: back' → parseKv src' = some (.error error)) ∧
        ∀ n message, error = .parse n message → n = front.length + 1 := by
  have haccepted : ∀ lines after, parseLines 1 [] lines = some (.ok after) ↔
      ∃ items, Accepted lines items ∧ after = numbered 1 items := by
    intro lines after
    rw [parseLines_eq_ok (show (Entries.keys []).Nodup from List.nodup_nil)]
    constructor
    · rintro ⟨items, hitems, hnodup, hafter⟩
      exact ⟨items, ⟨hitems, hnodup⟩, hafter⟩
    · rintro ⟨items, ⟨hitems, hnodup⟩, hafter⟩
      exact ⟨items, hitems, hnodup, hafter⟩
  refine ⟨?_, ?_, fun src after => haccepted _ _, ?_⟩
  · intro src
    rcases parseLines_cases 1 [] (textLines src) with ⟨after, hafter⟩ | ⟨_, _, _, _, error, _, _, _, herror⟩
    · exact ⟨_, hafter⟩
    · exact ⟨_, herror⟩
  · intro entries lines src hlayout hnodup hwritten
    obtain ⟨hends, items, hitems, hentries⟩ := hlayout.lines
    have hkeys : (numbered 1 items).keys = entries.map Prod.fst := by
      have hfirst := congrArg (List.map Prod.fst) (hentries 1)
      rw [List.map_map, List.map_map] at hfirst
      exact hfirst
    refine ⟨numbered 1 items, ?_, hentries 1⟩
    rw [parseKv_written hwritten hends, haccepted]
    exact ⟨items, ⟨hitems, by rw [hkeys]; exact hnodup⟩, rfl⟩
  · intro src error h
    rcases parseLines_cases 1 [] (textLines src) with ⟨after, hafter⟩ | ⟨front, raw, back, middle, error', hlines, hfront, hraw,
      herror⟩
    · rw [parseKv, hafter] at h
      exact nomatch h
    · rw [parseKv, herror] at h
      obtain rfl := Except.error.inj (Option.some.inj h)
      have hall : ∀ back', parseLines 1 [] (front ++ raw :: back') = some (.error error') := by
        intro back'
        rw [parseLines_append hfront, parseLines, hraw]
        rfl
      refine ⟨front, raw, back, hlines, ?_, ?_, ?_, ?_⟩
      · obtain ⟨items, hitems, -⟩ := (haccepted front middle).1 hfront
        exact ⟨items, hitems⟩
      · rintro ⟨items, hitems⟩
        have hok := (haccepted (front ++ [raw]) _).2 ⟨items, hitems, rfl⟩
        rw [hall []] at hok
        exact nomatch hok
      · intro src' back' hsame
        rw [parseKv, hsame]
        exact hall back'
      · intro n message herror
        obtain ⟨result, hresult, hline⟩ := parseLine_total (1 + front.length) middle raw
        rw [hraw] at hresult
        have hplace := hline n message ((Option.some.inj hresult).symm.trans (congrArg Except.error herror))
        omega

end Verdant.Config
