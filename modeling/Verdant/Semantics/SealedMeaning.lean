import Verdant.Semantics.SealedProfile

/-!
# What a sealed profile pins

Equal profile bytes come from one ledger digest, one set of rows and one set of statements: every layer of the writing is
delimited, and the dictionary restores each statement.  The chunks of a profile read back as the profile, and nothing else
does (`sealed_profile_pins`).
-/

namespace Verdant.Semantics

open Prog TextCodec

/-! ### Delimited texts -/

theorem selfDelimited_json : SelfDelimited fun s => (json s).toList := by
  intro a b x y h
  have hread : Json.parseString ((Json.quote a).toList ++ x) = Json.parseString ((Json.quote b).toList ++ y) :=
    congrArg Json.parseString h
  rw [Json.parseString_quote, Json.parseString_quote] at hread
  exact Prod.mk.inj (Except.ok.inj hread)

theorem opens_json : Opens fun s => (json s).toList := by
  intro s
  exact ⟨'"', Json.quotedChars s.toList ++ ['"'], Json.toList_quote s, by decide⟩

/-- Texts that begin with a brace. -/
theorem opens_object {α : Type} {write : α → List Char} (front : String) (hfront : front.toList.head? = some '\x7b')
    (h : ∀ a, ∃ rest, write a = front.toList ++ rest) : Opens write := by
  intro a
  obtain ⟨rest, hwrite⟩ := h a
  rcases hchars : front.toList with _ | ⟨c, cs⟩
  · rw [hchars] at hfront
    exact nomatch hfront
  · rw [hchars] at hfront
    obtain rfl := Option.some.inj hfront
    exact ⟨'\x7b', cs ++ rest, by rw [hwrite, hchars, List.cons_append], by decide⟩

theorem rowText_inj (a b : Row) (x y : List Char) (h : (rowText a).toList ++ x = (rowText b).toList ++ y) :
    a = b ∧ x = y := by
  unfold rowText at h
  simp only [String.toList_append, List.append_assoc] at h
  obtain ⟨hartifact, h⟩ := selfDelimited_json _ _ _ _ (List.append_cancel_left h)
  obtain ⟨hiri, h⟩ := selfDelimited_json _ _ _ _ (List.append_cancel_left h)
  obtain ⟨hkind, h⟩ := selfDelimited_json _ _ _ _ (List.append_cancel_left h)
  obtain ⟨hdirection, h⟩ := selfDelimited_json _ _ _ _ (List.append_cancel_left h)
  refine ⟨?_, List.append_cancel_left h⟩
  cases a
  cases b
  simp_all

theorem selfDelimited_rowText : SelfDelimited fun row => (rowText row).toList := rowText_inj

theorem opens_rowText : Opens fun row => (rowText row).toList := by
  refine opens_object "\x7b\"artifact\":" (by decide) ?_
  intro row
  show ∃ rest, (rowText row).toList = _
  unfold rowText
  simp only [String.toList_append, List.append_assoc]
  exact ⟨_, rfl⟩

theorem delimitedBy_repr : DelimitedBy [',', ']'] fun n => (Nat.repr n).toList := by
  simp only [Nat.toList_repr]
  refine delimitedBy_toDigits ?_
  simp [Char.isDigit]

theorem opens_repr : Opens fun n => (Nat.repr n).toList := by
  intro n
  simp only [Nat.toList_repr]
  obtain ⟨c, cs, hdigits⟩ := List.exists_cons_of_ne_nil (Nat.toDigits_ne_nil (b := 10) (n := n))
  refine ⟨c, cs, hdigits, ?_⟩
  have hdigit := Nat.isDigit_of_mem_toDigits (b := 10) (n := n) (by decide) (by decide) (c := c) (by rw [hdigits]; simp)
  rintro rfl
  exact absurd hdigit (by decide)

theorem selfDelimited_placesText : SelfDelimited fun places => (placesText places).toList := by
  intro a b x y h
  simp only [placesText, toList_bracketed] at h
  exact selfDelimited_writeList delimitedBy_repr opens_repr _ _ _ _ h

theorem indicesText_inj (a b : Indices) (x y : List Char)
    (h : (indicesText a).toList ++ x = (indicesText b).toList ++ y) : a = b ∧ x = y := by
  obtain ⟨identity, exact', insert⟩ := a
  obtain ⟨identity', exact'', insert'⟩ := b
  unfold indicesText at h
  simp only [String.toList_append, List.append_assoc] at h
  have h₁ := List.append_cancel_left (List.append_cancel_left (List.append_cancel_left h))
  obtain ⟨hidentity, h₂⟩ := selfDelimited_placesText _ _ _ _ h₁
  have h₃ := List.append_cancel_left (List.append_cancel_left (List.append_cancel_left h₂))
  obtain ⟨hexact, h₄⟩ := selfDelimited_placesText _ _ _ _ h₃
  have h₅ := List.append_cancel_left (List.append_cancel_left (List.append_cancel_left h₄))
  obtain ⟨hinsert, h₆⟩ := selfDelimited_placesText _ _ _ _ h₅
  rw [hidentity, hexact, hinsert]
  exact ⟨rfl, List.append_cancel_left h₆⟩

theorem selfDelimited_indicesText : SelfDelimited fun indices => (indicesText indices).toList := indicesText_inj

theorem opens_indicesText : Opens fun indices => (indicesText indices).toList := by
  refine opens_object "\x7b" (by decide) ?_
  intro indices
  show ∃ rest, (indicesText indices).toList = _
  unfold indicesText
  simp only [String.toList_append, List.append_assoc]
  exact ⟨_, rfl⟩

/-! ### Sets of texts -/

theorem mem_sortedTexts {s : String} {texts : List String} : s ∈ sortedTexts texts ↔ s ∈ texts := by
  unfold sortedTexts
  rw [List.mem_dedup, mem_sortBy]

/-- One bracketed list of sorted texts comes from one set of values. -/
theorem same_values {α : Type} {write : α → String} (h : SelfDelimited fun a => (write a).toList)
    (hopens : Opens fun a => (write a).toList) {values values' : List α} {x y : List Char}
    (heq : (bracketed (sortedTexts (values.map write))).toList ++ x =
      (bracketed (sortedTexts (values'.map write))).toList ++ y) : (∀ a, a ∈ values ↔ a ∈ values') ∧ x = y := by
  have himage : ∀ l : List α, ∀ s ∈ sortedTexts (l.map write), ∃ a, write a = s := by
    intro l s hs
    obtain ⟨a, -, ha⟩ := List.mem_map.1 (mem_sortedTexts.1 hs)
    exact ⟨a, ha⟩
  obtain ⟨htexts, hrest⟩ := bracketed_inj (h.delimitedBy _) hopens (himage values) (himage values') heq
  have hinjective : Function.Injective write := fun a b hab => h.injective (congrArg String.toList hab)
  refine ⟨fun a => ?_, hrest⟩
  rw [← List.mem_map_of_injective hinjective, ← mem_sortedTexts, htexts, mem_sortedTexts,
    List.mem_map_of_injective hinjective]

theorem bracketed_json_inj {texts texts' : List String} {x y : List Char}
    (h : (bracketed (texts.map json)).toList ++ x = (bracketed (texts'.map json)).toList ++ y) :
    texts = texts' ∧ x = y := by
  rw [toList_bracketed, toList_bracketed] at h
  exact selfDelimited_writeList (selfDelimited_json.delimitedBy _) opens_json _ _ _ _ h

theorem rows_of_text {rows rows' : List Row}
    (h : bracketed (sortedTexts (rows.map rowText)) = bracketed (sortedTexts (rows'.map rowText))) :
    ∀ row, row ∈ rows ↔ row ∈ rows' := by
  have hlist := congrArg (fun s => s.toList ++ []) h
  exact (same_values selfDelimited_rowText opens_rowText hlist).1

theorem Factored.of_text {factored factored' : Factored} (h : factored.text = factored'.text) :
    factored.dictionary = factored'.dictionary ∧ ∀ indices, indices ∈ factored.steps ↔ indices ∈ factored'.steps := by
  have hlist := congrArg String.toList h
  simp only [Factored.text, String.toList_append, List.append_assoc] at hlist
  obtain ⟨hdictionary, hlist⟩ := bracketed_json_inj (List.append_cancel_left hlist)
  exact ⟨hdictionary, (same_values selfDelimited_indicesText opens_indicesText (List.append_cancel_left hlist)).1⟩

/-! ### Segments -/

/-- Whatever is cut off is in the parts, in order. -/
theorem segmentsFrom_join {quoted escaped : Bool} {part cs : List Char} {parts : List String}
    (h : segmentsFrom quoted escaped part cs = .ok parts) : parts.flatMap String.toList = part ++ cs := by
  fun_induction segmentsFrom quoted escaped part cs generalizing parts with
  | case1 => exact nomatch h
  | case2 escaped part =>
    obtain rfl := Except.ok.inj h
    by_cases hpart : part = []
    · rw [if_pos hpart, hpart]
      rfl
    · rw [if_neg hpart, List.flatMap_singleton, String.toList_ofList, List.append_nil]
  | case3 part c cs ih =>
    rw [ih h, List.append_assoc, List.singleton_append]
  | case4 part cs ih =>
    rw [ih h, List.append_assoc, List.singleton_append]
  | case5 part cs _ ih =>
    obtain ⟨rest, hrest, h⟩ := Result.bind_eq_ok.1 h
    obtain rfl := Except.ok.inj h
    rw [List.flatMap_cons, String.toList_ofList, ih hrest, List.append_assoc, List.nil_append, List.singleton_append]
  | case6 part c cs _ _ ih =>
    rw [ih h, List.append_assoc, List.singleton_append]
  | case7 escaped part cs ih =>
    obtain ⟨rest, hrest, h⟩ := Result.bind_eq_ok.1 h
    obtain rfl := Except.ok.inj h
    by_cases hpart : part = []
    · rw [if_pos hpart, ih hrest, hpart]
      rfl
    · rw [if_neg hpart, List.flatMap_cons, String.toList_ofList, ih hrest, List.singleton_append]
  | case8 escaped part c cs _ ih =>
    rw [ih h, List.append_assoc, List.singleton_append]

theorem segments_join {text : String} {parts : List String} (h : segments text = .ok parts) :
    String.join parts = text := by
  apply String.toList_injective
  rw [String.toList_join, segmentsFrom_join h, List.nil_append]

/-! ### The dictionary -/

def restore (dictionary : List String) (places : List Nat) : String :=
  String.join (places.map fun i => dictionary.getD i "")

/-- The three statements behind their places. -/
def restoreAll (dictionary : List String) (indices : Indices) : String × String × String :=
  (restore dictionary indices.1, restore dictionary indices.2.1, restore dictionary indices.2.2)

theorem restore_placesOf {dictionary parts : List String} {places : List Nat}
    (h : placesOf dictionary parts = .ok places) : restore dictionary places = String.join parts := by
  have hplaces := Result.mapM_eq_ok.1 h
  clear h
  refine congrArg String.join ?_
  induction hplaces with
  | nil => rfl
  | @cons part i parts places hpart _ ih =>
    rw [List.map_cons, ih]
    by_cases hmem : part ∈ dictionary
    · rw [if_pos hmem] at hpart
      obtain rfl := Except.ok.inj hpart
      rw [List.getD_eq_getElem _ _ (List.idxOf_lt_length_of_mem hmem), List.getElem_idxOf]
    · rw [if_neg hmem] at hpart
      exact nomatch hpart

/-- A statement triple whose parts have these places. -/
theorem restoreAll_placesOf {dictionary : List String} {triple : String × String × String}
    {part : List String × List String × List String} {indices : Indices}
    (hpart : (do
      let identity ← segments triple.1
      let exact ← segments triple.2.1
      let insert ← segments triple.2.2
      .ok (identity, exact, insert)) = .ok part)
    (hindices : (do
      let identity ← placesOf dictionary part.1
      let exact ← placesOf dictionary part.2.1
      let insert ← placesOf dictionary part.2.2
      .ok (identity, exact, insert)) = .ok indices) : restoreAll dictionary indices = triple := by
  obtain ⟨identity, exact', insert⟩ := triple
  obtain ⟨parts₁, hparts₁, hpart⟩ := Result.bind_eq_ok.1 hpart
  obtain ⟨parts₂, hparts₂, hpart⟩ := Result.bind_eq_ok.1 hpart
  obtain ⟨parts₃, hparts₃, hpart⟩ := Result.bind_eq_ok.1 hpart
  obtain rfl := Except.ok.inj hpart
  obtain ⟨places₁, hplaces₁, hindices⟩ := Result.bind_eq_ok.1 hindices
  obtain ⟨places₂, hplaces₂, hindices⟩ := Result.bind_eq_ok.1 hindices
  obtain ⟨places₃, hplaces₃, hindices⟩ := Result.bind_eq_ok.1 hindices
  obtain rfl := Except.ok.inj hindices
  rw [restoreAll, restore_placesOf hplaces₁, restore_placesOf hplaces₂, restore_placesOf hplaces₃,
    segments_join hparts₁, segments_join hparts₂, segments_join hparts₃]

theorem map_restoreAll {dictionary : List String} {triples : List (String × String × String)}
    {parts : List (List String × List String × List String)} {steps : List Indices}
    (hparts : List.Forall₂ (fun (triple : String × String × String) part => (do
      let identity ← segments triple.1
      let exact ← segments triple.2.1
      let insert ← segments triple.2.2
      .ok (identity, exact, insert)) = .ok part) triples parts)
    (hsteps : List.Forall₂ (fun (part : List String × List String × List String) (indices : Indices) => (do
      let identity ← placesOf dictionary part.1
      let exact ← placesOf dictionary part.2.1
      let insert ← placesOf dictionary part.2.2
      .ok (identity, exact, insert)) = .ok indices) parts steps) : steps.map (restoreAll dictionary) = triples := by
  induction hparts generalizing steps with
  | nil =>
    cases hsteps
    rfl
  | cons hpart _ ih =>
    cases hsteps with
    | cons hindices hrest => rw [List.map_cons, ih hrest, restoreAll_placesOf hpart hindices]

/-- The dictionary restores every statement. -/
theorem factor_restore {triples : List (String × String × String)} {factored : Factored}
    (h : factor triples = .ok factored) : factored.steps.map (restoreAll factored.dictionary) = triples := by
  obtain ⟨parts, hparts, h⟩ := Result.bind_eq_ok.1 h
  obtain ⟨steps, hsteps, h⟩ := Result.bind_eq_ok.1 h
  obtain rfl := Except.ok.inj h
  exact map_restoreAll (Result.mapM_eq_ok.1 hparts) (Result.mapM_eq_ok.1 hsteps)

/-! ### The statements captured -/

def readTexts (steps : List Step) : List String := steps.flatMap fun step => [step.identity.text, step.exact.text]

theorem length_readTexts (steps : List Step) : (readTexts steps).length = steps.length * 2 := by
  induction steps with
  | nil => rfl
  | cons step steps ih =>
    simp only [readTexts, List.flatMap_cons, List.length_append, List.length_cons, List.length_nil] at ih ⊢
    omega

theorem pairs_readTexts (steps : List Step) :
    pairs (readTexts steps) = steps.map fun step => (step.identity.text, step.exact.text) := by
  induction steps with
  | nil => rfl
  | cons step steps ih =>
    rw [List.map_cons, ← ih]
    rfl

/-- The reads of one step are at their places. -/
theorem readTexts_getElem (front : List Step) (step : Step) (back : List Step) :
    (readTexts (front ++ step :: back))[front.length * 2]? = some step.identity.text ∧
      (readTexts (front ++ step :: back))[front.length * 2 + 1]? = some step.exact.text := by
  have hsplit : readTexts (front ++ step :: back) =
      readTexts front ++ step.identity.text :: step.exact.text :: readTexts back := by
    simp [readTexts]
  rw [hsplit, ← length_readTexts]
  constructor
  · rw [List.getElem?_append_right (Nat.le_refl _), Nat.sub_self]
    rfl
  · rw [List.getElem?_append_right (Nat.le_succ _), Nat.succ_eq_add_one, Nat.add_sub_cancel_left]
    rfl

/-- A store that holds everything is read twice for each step, and nothing is missing. -/
theorem serve_recordReads (steps missing : List Step) (reads : List String) :
    (readSteps steps missing).run.serve recordReads reads = (reads ++ readTexts steps, .ok missing) := by
  induction steps generalizing reads with
  | nil =>
    rw [readTexts, List.flatMap_nil, List.append_nil]
    rfl
  | cons step steps ih =>
    have hidentity : (execute step.identity).run.serve recordReads reads =
        (reads ++ [step.identity.text], .ok (some 1)) := rfl
    have hexact : (execute step.exact).run.serve recordReads (reads ++ [step.identity.text]) =
        (reads ++ [step.identity.text] ++ [step.exact.text], .ok (some 1)) := rfl
    refine (serve_try_ok hidentity).trans ?_
    refine (serve_try_ok hexact).trans ?_
    rw [if_neg (not_not.2 rfl), ih, List.append_assoc, List.append_assoc]
    rfl

section Writes

variable {steps front back : List Step} {step : Step} {inserts : List String}

theorem half_readTexts (steps : List Step) : (readTexts steps).length / 2 = steps.length := by
  rw [length_readTexts, Nat.mul_div_cancel _ (by decide)]

/-- The calls of the first phase. -/
theorem serve_read_call (hsteps : steps = front ++ step :: back) :
    (execute step.identity).run.serve (recordWrites (readTexts steps)) ⟨front.length, inserts⟩ =
      (⟨front.length + 1, inserts⟩, .ok (some 0)) := by
  have hinside : front.length < steps.length := by
    rw [hsteps, List.length_append, List.length_cons]
    omega
  have hread := (readTexts_getElem front step back).1
  rw [← hsteps] at hread
  show recordWrites (readTexts steps) step.identity ⟨front.length, inserts⟩ = _
  simp only [recordWrites, half_readTexts, if_pos hinside, hread, ne_eq, not_true_eq_false, if_false]

/-- The three calls of the second phase for each step. -/
theorem serve_insert_call :
    (execute step.insert).run.serve (recordWrites (readTexts steps)) ⟨steps.length + front.length * 3, inserts⟩ =
      (⟨steps.length + front.length * 3 + 1, inserts ++ [step.insert.text]⟩, .ok none) := by
  have hplace : (steps.length + front.length * 3 - steps.length) % 3 = 0 := by omega
  show recordWrites (readTexts steps) step.insert ⟨steps.length + front.length * 3, inserts⟩ = _
  simp only [recordWrites, half_readTexts, if_neg (Nat.not_lt.2 (Nat.le_add_right _ _)), hplace]

theorem serve_identity_call (hsteps : steps = front ++ step :: back) :
    (execute step.identity).run.serve (recordWrites (readTexts steps)) ⟨steps.length + front.length * 3 + 1, inserts⟩ =
      (⟨steps.length + front.length * 3 + 2, inserts⟩, .ok (some 1)) := by
  have hplace : (steps.length + front.length * 3 + 1 - steps.length) % 3 = 0 + 1 := by omega
  have hstep : (steps.length + front.length * 3 + 1 - steps.length) / 3 = front.length := by omega
  have hpast : ¬ steps.length + front.length * 3 + 1 < steps.length := by omega
  have hread := (readTexts_getElem front step back).1
  rw [← hsteps] at hread
  show recordWrites (readTexts steps) step.identity ⟨steps.length + front.length * 3 + 1, inserts⟩ = _
  simp only [recordWrites, half_readTexts, if_neg hpast, hplace, hstep, Nat.add_zero, hread, ne_eq, not_true_eq_false,
    if_false]

theorem serve_exact_call (hsteps : steps = front ++ step :: back) :
    (execute step.exact).run.serve (recordWrites (readTexts steps)) ⟨steps.length + front.length * 3 + 2, inserts⟩ =
      (⟨steps.length + (front ++ [step]).length * 3, inserts⟩, .ok (some 1)) := by
  have hplace : (steps.length + front.length * 3 + 2 - steps.length) % 3 = 1 + 1 := by omega
  have hstep : (steps.length + front.length * 3 + 2 - steps.length) / 3 = front.length := by omega
  have hpast : ¬ steps.length + front.length * 3 + 2 < steps.length := by omega
  have hnext : steps.length + front.length * 3 + 2 + 1 = steps.length + (front ++ [step]).length * 3 := by
    rw [List.length_append, List.length_singleton]
    omega
  have hread := (readTexts_getElem front step back).2
  rw [← hsteps] at hread
  show recordWrites (readTexts steps) step.exact ⟨steps.length + front.length * 3 + 2, inserts⟩ = _
  simp only [recordWrites, half_readTexts, if_neg hpast, hplace, hstep, hread, ne_eq, not_true_eq_false, if_false, hnext]

theorem serve_recordWrites_reads {missing rest : List Step} (hsteps : steps = front ++ rest) :
    (readSteps rest missing).run.serve (recordWrites (readTexts steps)) ⟨front.length, inserts⟩ =
      (⟨steps.length, inserts⟩, .ok (missing ++ rest)) := by
  induction rest generalizing front missing with
  | nil =>
    rw [hsteps, List.append_nil, List.append_nil]
    rfl
  | cons step rest ih =>
    refine (serve_try_ok (serve_read_call hsteps)).trans ?_
    have hinside : steps = (front ++ [step]) ++ rest := by rw [hsteps, List.append_assoc, List.singleton_append]
    have hnext := @ih _ (missing ++ [step]) hinside
    rw [List.length_append, List.length_singleton, List.append_assoc, List.singleton_append] at hnext
    exact hnext

theorem serve_recordWrites_writes {rest : List Step} (hsteps : steps = front ++ rest) :
    (writeSteps rest).run.serve (recordWrites (readTexts steps)) ⟨steps.length + front.length * 3, inserts⟩ =
      (⟨steps.length * 4, inserts ++ rest.map fun step => step.insert.text⟩, .ok ()) := by
  induction rest generalizing front inserts with
  | nil =>
    have hend : steps.length + front.length * 3 = steps.length * 4 := by
      rw [hsteps, List.append_nil]
      omega
    rw [hend, List.map_nil, List.append_nil]
    rfl
  | cons step rest ih =>
    refine (serve_try_ok serve_insert_call).trans ?_
    refine (serve_try_ok (serve_identity_call hsteps)).trans ?_
    rw [if_neg (not_not.2 rfl)]
    refine (serve_try_ok (serve_exact_call hsteps)).trans ?_
    rw [if_neg (not_not.2 rfl), ih (by rw [hsteps, List.append_assoc]; rfl), List.append_assoc]
    rfl

end Writes

theorem zip_texts (steps : List Step) :
    ((steps.map fun step => (step.identity.text, step.exact.text)).zip (steps.map fun step => step.insert.text)).map
      (fun ((identity, exact), insert) => (identity, exact, insert)) = steps.map Step.texts := by
  induction steps with
  | nil => rfl
  | cons step steps ih =>
    rw [List.map_cons, List.map_cons, List.zip_cons_cons, List.map_cons, ih]
    rfl

/-- The two recordings are the statements of the plan. -/
theorem captureTriples_eq (plan : Plan) : captureTriples plan = .ok (plan.items.map Step.texts) := by
  have hfirst : plan.reconcile.run.serve recordReads [] = (readTexts plan.items, .ok 0) := by
    refine (serve_try_ok (serve_recordReads plan.items [] [])).trans ?_
    rfl
  have hwhole : plan.items = [] ++ plan.items := (List.nil_append _).symm
  have hreads : (readSteps plan.items []).run.serve (recordWrites (readTexts plan.items)) ⟨0, []⟩ = _ :=
    serve_recordWrites_reads hwhole
  have hwrites : (writeSteps plan.items).run.serve (recordWrites (readTexts plan.items)) ⟨plan.items.length + 0 * 3, []⟩ =
    _ := serve_recordWrites_writes hwhole
  have hsecond : plan.reconcile.run.serve (recordWrites (readTexts plan.items)) ⟨0, []⟩ =
      (⟨plan.items.length * 4, plan.items.map fun step => step.insert.text⟩, .ok plan.items.length) := by
    refine (serve_try_ok hreads).trans ?_
    exact (serve_try_ok hwrites).trans rfl
  have heven : (readTexts plan.items).length % 2 = 0 := by
    rw [length_readTexts]
    omega
  unfold captureTriples
  rw [hfirst]
  show (if 0 ≠ 0 ∨ (readTexts plan.items).length % 2 ≠ 0 then _ else _) = _
  rw [if_neg (by simp [heven]), hsecond]
  show (if plan.items.length ≠ (readTexts plan.items).length / 2 ∨ _ ∨ _ then _ else _) = _
  rw [half_readTexts, if_neg (by simp), pairs_readTexts, zip_texts]

/-! ### Capture -/

theorem isDigest_sha256 {tool : HashTool} {bytes digest : String} (h : sha256 tool bytes = .ok digest) :
    IsDigest digest := by
  unfold sha256 at h
  rw [Result.ite_error_eq_ok] at h
  rcases htool : tool bytes with _ | text
  · rw [htool] at h
    exact nomatch h.2
  · simp only [htool] at h
    rcases hsuffix : "  -\n".toList.isSuffixOf? text.toList with _ | hex
    · rw [hsuffix] at h
      exact nomatch h.2
    · simp only [hsuffix] at h
      by_cases hdigest : IsDigest (String.ofList hex)
      · rw [if_pos hdigest] at h
        obtain rfl := Except.ok.inj h.2
        exact hdigest
      · rw [if_neg hdigest] at h
        exact nomatch h.2

theorem isDigest_ledgerDigest {tool : HashTool} {report : Report} {digest : String}
    (h : ledgerDigest tool report = .ok digest) : IsDigest digest := by
  obtain ⟨bytes, -, h⟩ := Result.bind_eq_ok.1 h
  obtain ⟨known, -, h⟩ := Result.bind_eq_ok.1 h
  rw [Result.ite_error_eq_ok, Result.mapError_eq_ok] at h
  exact isDigest_sha256 h.2

/-- What the fields of a captured profile are. -/
structure Captured (tool : HashTool) (report : Report) (plan : Plan) (profile : SealedProfile) (factored : Factored) :
    Prop where
  digest : ledgerDigest tool report = .ok profile.ledgerDigest
  factor : factor (plan.items.map Step.texts) = .ok factored
  bytes : profile.bytes = encodeFrames [profileFormat, recipeId, profileFraming, pinsJson, profile.ledgerDigest,
    bracketed (sortedTexts (report.rows.map rowText)), factored.text]
  bounded : profile.bytes.utf8ByteSize ≤ maxPayloadBytes

theorem captured_of_capture {tool : HashTool} {report : Report} {plan : Plan} {profile : SealedProfile}
    (h : SealedProfile.capture tool report plan = .ok profile) : ∃ factored, Captured tool report plan profile factored := by
  obtain ⟨digest, hdigest, h⟩ := Result.bind_eq_ok.1 h
  obtain ⟨steps, hsteps, h⟩ := Result.bind_eq_ok.1 h
  rw [Result.ite_error_eq_ok, not_lt] at h
  obtain rfl := Except.ok.inj h.2
  obtain ⟨triples, htriples, hsteps⟩ := Result.bind_eq_ok.1 hsteps
  obtain rfl := Except.ok.inj ((captureTriples_eq plan).symm.trans htriples)
  obtain ⟨factored, hfactored, hsteps⟩ := Result.bind_eq_ok.1 hsteps
  obtain rfl := Except.ok.inj hsteps
  exact ⟨factored, hdigest, hfactored, rfl, h.1⟩

/-- Equal bytes are equal fields. -/
theorem fields_of_bytes {tool tool' : HashTool} {report report' : Report} {plan plan' : Plan}
    {profile profile' : SealedProfile} {factored factored' : Factored} (h : Captured tool report plan profile factored)
    (h' : Captured tool' report' plan' profile' factored') (hbytes : profile.bytes = profile'.bytes) :
    profile.ledgerDigest = profile'.ledgerDigest ∧ (∀ row, row ∈ report.rows ↔ row ∈ report'.rows) ∧
      ∀ triple, triple ∈ plan.items.map Step.texts ↔ triple ∈ plan'.items.map Step.texts := by
  rw [h.bytes, h'.bytes] at hbytes
  have hfields := encodeFrames_injective hbytes
  simp only [List.cons.injEq, true_and, and_true] at hfields
  obtain ⟨hdigest, hrows, htext⟩ := hfields
  obtain ⟨hdictionary, hsteps⟩ := Factored.of_text htext
  refine ⟨hdigest, rows_of_text hrows, fun triple => ?_⟩
  rw [← factor_restore h.factor, ← factor_restore h'.factor, hdictionary, List.mem_map, List.mem_map]
  simp only [hsteps]

/-! ### Reading back -/

/-- A frame of seven fields under the pins, in the bound. -/
def SealedProfile.Wellformed (profile : SealedProfile) : Prop :=
  (∃ rows steps, profile.bytes =
    encodeFrames [profileFormat, recipeId, profileFraming, pinsJson, profile.ledgerDigest, rows, steps]) ∧
    IsDigest profile.ledgerDigest ∧ profile.bytes.utf8ByteSize ≤ maxPayloadBytes

/-- The payloads of a reading are whole chunks of the text. -/
def Payloads (payloads : List String) : Prop :=
  ∀ payload ∈ payloads, payload ≠ "" ∧ payload.utf8ByteSize ≤ chunkBytes

theorem joinPayloads_eq_ok {payloads : List String} {bytes whole : String} (hbytes : bytes.utf8ByteSize ≤ maxPayloadBytes) :
    joinPayloads payloads bytes = .ok whole ↔
      Payloads payloads ∧ bytes ++ String.join payloads = whole ∧ whole.utf8ByteSize ≤ maxPayloadBytes := by
  induction payloads generalizing bytes with
  | nil =>
    have hempty : bytes ++ String.join [] = bytes := String.append_empty
    rw [joinPayloads, Except.ok.injEq, hempty]
    constructor
    · rintro rfl
      exact ⟨fun payload h => (nomatch h), rfl, hbytes⟩
    · exact fun h => h.2.1
  | cons payload payloads ih =>
    have hjoin : bytes ++ String.join (payload :: payloads) = bytes ++ payload ++ String.join payloads := by
      apply String.toList_injective
      simp [String.toList_append, String.toList_join]
    rw [joinPayloads, hjoin, Result.ite_error_eq_ok, not_or, not_or, not_lt, not_lt]
    constructor
    · rintro ⟨⟨hempty, hchunk, hwhole⟩, h⟩
      rw [← String.utf8ByteSize_append] at hwhole
      obtain ⟨hall, hrest⟩ := (ih hwhole).1 h
      refine ⟨fun other hother => ?_, hrest⟩
      rcases List.mem_cons.1 hother with rfl | hother
      · exact ⟨hempty, hchunk⟩
      · exact hall other hother
    · rintro ⟨hall, rfl, hsize⟩
      obtain ⟨hempty, hchunk⟩ := hall payload List.mem_cons_self
      have hwhole : (bytes ++ payload).utf8ByteSize ≤ maxPayloadBytes := by
        rw [String.utf8ByteSize_append] at hsize
        exact (Nat.le_add_right _ _).trans hsize
      refine ⟨⟨hempty, hchunk, ?_⟩, (ih hwhole).2 ⟨fun other hother => hall other (List.mem_cons_of_mem _ hother), rfl, hsize⟩⟩
      rw [← String.utf8ByteSize_append]
      exact hwhole

theorem payloads_payloads (profile : SealedProfile) : Payloads profile.payloads := by
  intro payload hpayload
  obtain ⟨chunk, hchunk, rfl⟩ := List.mem_map.1 hpayload
  obtain ⟨hne, hsize⟩ := of_mem_chunks hchunk
  refine ⟨fun hempty => hne ?_, ?_⟩
  · rw [← String.toList_ofList (l := chunk), hempty]
    rfl
  · rw [utf8ByteSize_ofList]
    exact hsize

theorem join_payloads (profile : SealedProfile) : String.join profile.payloads = profile.bytes := by
  apply String.toList_injective
  have hchunks : profile.payloads.map String.toList = chunks profile.bytes.toList := by
    rw [SealedProfile.payloads, List.map_map]
    refine (List.map_congr_left fun chunk _ => ?_).trans (List.map_id _)
    exact String.toList_ofList
  rw [String.toList_join, List.flatMap_def, hchunks, flatten_chunks]

/-- At most one chunk more than full chunks would be. -/
theorem length_payloads_le {profile : SealedProfile} (hbytes : profile.bytes.utf8ByteSize ≤ maxPayloadBytes) :
    profile.payloads.length ≤ maxPayloadBytes / chunkBytes + 1 := by
  have hlength : profile.payloads.length = (chunks profile.bytes.toList).length := List.length_map _
  have hbound : maxPayloadBytes / chunkBytes + 1 = 13 := rfl
  rw [hlength, hbound]
  by_cases hempty : profile.bytes.toList = []
  · have hnone : chunks profile.bytes.toList = [] := by
      rw [hempty, chunks]
      rfl
    rw [hnone]
    exact Nat.zero_le _
  · have hfew := length_chunks_lt hempty
    have hsize : size profile.bytes.toList = profile.bytes.utf8ByteSize := (utf8ByteSize_eq _).symm
    rw [hsize] at hfew
    have hmax : maxPayloadBytes = 98304 := rfl
    omega

theorem encodeFrames_cons_ne_empty (field : String) (fields : List String) : encodeFrames (field :: fields) ≠ "" := by
  intro hempty
  have hcolon : ':' ∈ (encodeFrames (field :: fields)).toList := by
    rw [toList_encodeFrames_cons, toList_frame]
    exact List.mem_append_left _ (List.mem_append_right _ List.mem_cons_self)
  rw [hempty] at hcolon
  exact nomatch hcolon

theorem SealedProfile.Wellformed.payloads_ne_nil {profile : SealedProfile} (h : profile.Wellformed) :
    profile.payloads ≠ [] := by
  obtain ⟨⟨rows, steps, hframe⟩, -, -⟩ := h
  intro hnil
  have hempty := join_payloads profile
  rw [hnil, hframe] at hempty
  exact encodeFrames_cons_ne_empty _ _ hempty.symm

theorem unframe_frames {fields : List String} {bytes : String} (hbytes : encodeFrames fields = bytes)
    (hsize : bytes.utf8ByteSize ≤ maxPayloadBytes) (hlength : fields.length ≤ 7) : unframe bytes 7 = .ok fields := by
  rw [← hbytes]
  refine decodeFields_encodeFrames hlength fun field hfield => ?_
  have hsmall : field.utf8ByteSize ≤ maxPayloadBytes := by
    have hle := utf8ByteSize_le_encodeFrames hfield
    rw [hbytes] at hle
    exact hle.trans hsize
  have hmax : maxPayloadBytes < 2 ^ 64 := by decide
  exact spelled_eq_ok.2 ⟨parseU64_repr (hsmall.trans_lt hmax), rfl⟩

theorem frames_of_unframe {fields : List String} {bytes : String} (h : unframe bytes 7 = .ok fields) :
    encodeFrames fields = bytes := by
  refine String.toList_injective (encodeFrames_of_decodeFields ?_ h).1
  intro s n hn
  exact (spelled_eq_ok.1 hn).2

/-- The accepted chunks are those of the well-formed profiles. -/
theorem fromPayloads_eq_ok {payloads : List String} {profile : SealedProfile} :
    SealedProfile.fromPayloads payloads = .ok profile ↔ profile.Wellformed ∧ profile.payloads = payloads := by
  unfold SealedProfile.fromPayloads
  rw [Result.ite_error_eq_ok]
  have hstart : "".utf8ByteSize ≤ maxPayloadBytes := by decide
  constructor
  · rintro ⟨-, h⟩
    obtain ⟨bytes, hjoin, h⟩ := Result.bind_eq_ok.1 h
    obtain ⟨-, -, hsize⟩ := (joinPayloads_eq_ok hstart).1 hjoin
    obtain ⟨fields, hfields, h⟩ := Result.bind_eq_ok.1 h
    have hframes := frames_of_unframe hfields
    split at h
    · rename_i format recipe framing pins digest rows steps
      rw [Result.ite_error_eq_ok] at h
      obtain ⟨hpins, h⟩ := h
      simp only [not_or, not_not] at hpins
      obtain ⟨rfl, rfl, rfl, rfl, hdigest⟩ := hpins
      dsimp only at h
      rw [Result.ite_error_eq_ok, not_not] at h
      obtain ⟨hpayloads, h⟩ := h
      obtain rfl := Except.ok.inj h
      exact ⟨⟨⟨rows, steps, hframes.symm⟩, hdigest, hsize⟩, hpayloads⟩
    · exact nomatch h
  · rintro ⟨hwell, rfl⟩
    have hnonempty := hwell.payloads_ne_nil
    obtain ⟨⟨rows, steps, hframe⟩, hdigest, hsize⟩ := hwell
    refine ⟨not_or.2 ⟨hnonempty, Nat.not_lt.2 (length_payloads_le hsize)⟩, ?_⟩
    have hjoin : joinPayloads profile.payloads "" = .ok profile.bytes := by
      refine (joinPayloads_eq_ok hstart).2 ⟨payloads_payloads profile, ?_, hsize⟩
      rw [join_payloads, String.empty_append]
    rw [hjoin, Result.ok_bind, unframe_frames hframe.symm hsize (Nat.le_refl 7), Result.ok_bind]
    dsimp only
    rw [if_neg (by simp [hdigest]), if_neg (not_not.2 rfl)]

theorem SealedProfile.Wellformed.of_capture {tool : HashTool} {report : Report} {plan : Plan} {profile : SealedProfile}
    (h : SealedProfile.capture tool report plan = .ok profile) : profile.Wellformed := by
  obtain ⟨factored, hcaptured⟩ := captured_of_capture h
  exact ⟨⟨_, _, hcaptured.bytes⟩, isDigest_ledgerDigest hcaptured.digest, hcaptured.bounded⟩

/-- The bytes of a profile pin one meaning, and its chunks are read back and nothing else is. -/
theorem sealed_profile_pins :
    (∀ (tool tool' : HashTool) (report report' : Report) (plan plan' : Plan) (profile profile' : SealedProfile),
      SealedProfile.capture tool report plan = .ok profile → SealedProfile.capture tool' report' plan' = .ok profile' →
        profile.bytes = profile'.bytes → ledgerDigest tool report = ledgerDigest tool' report' ∧
          (∀ row, row ∈ report.rows ↔ row ∈ report'.rows) ∧
          ∀ triple, triple ∈ plan.items.map Step.texts ↔ triple ∈ plan'.items.map Step.texts) ∧
      (∀ text parts, segments text = .ok parts → String.join parts = text) ∧
      (∀ plan : Plan, captureTriples plan = .ok (plan.items.map Step.texts)) ∧
      (∀ triples factored, factor triples = .ok factored →
        factored.steps.map (restoreAll factored.dictionary) = triples) ∧
      (∀ profile : SealedProfile, String.join profile.payloads = profile.bytes ∧
        ∀ payload ∈ profile.payloads, payload ≠ "" ∧ payload.utf8ByteSize ≤ 8192) ∧
      (∀ payloads profile, SealedProfile.fromPayloads payloads = .ok profile ↔
        profile.Wellformed ∧ profile.payloads = payloads) ∧
      ∀ (tool : HashTool) (report : Report) (plan : Plan) (profile : SealedProfile),
        SealedProfile.capture tool report plan = .ok profile → profile.payloads.length ≤
          maxPayloadBytes / chunkBytes + 1 ∧ SealedProfile.fromPayloads profile.payloads = .ok profile := by
  refine ⟨?_, fun _ _ => segments_join, captureTriples_eq, fun _ _ => factor_restore, ?_, fun _ _ => fromPayloads_eq_ok, ?_⟩
  · intro tool tool' report report' plan plan' profile profile' h h' hbytes
    obtain ⟨factored, hcaptured⟩ := captured_of_capture h
    obtain ⟨factored', hcaptured'⟩ := captured_of_capture h'
    obtain ⟨hdigest, hmeaning⟩ := fields_of_bytes hcaptured hcaptured' hbytes
    refine ⟨?_, hmeaning⟩
    rw [hcaptured.digest, hcaptured'.digest, hdigest]
  · exact fun profile => ⟨join_payloads profile, payloads_payloads profile⟩
  · intro tool report plan profile h
    have hwell := SealedProfile.Wellformed.of_capture h
    exact ⟨length_payloads_le hwell.2.2, fromPayloads_eq_ok.2 ⟨hwell, rfl⟩⟩

end Verdant.Semantics
