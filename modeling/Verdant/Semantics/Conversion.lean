import Verdant.Semantics.Convert

/-!
# What a conversion is

`Admitted` says what a candidate alone must meet, `Violation` which error its first failing check gives.  A conversion
depends on the candidates and not on their order; it succeeds exactly when all of them are admitted and no two claim a
slot, keeps every trusted field, and its failure is the first violation in source-key order or the smallest contested
slot (`convert_exact`).
-/

namespace Verdant.Semantics

open TextCodec

/-! ### One candidate -/

/-- A supported class, a slot of its kind, and admitted tokens. -/
structure Admitted (profile : Profile) (item : ExternalItem) (kind : VerdantKind) : Prop where
  supported : profile.classify item.externalClass = .supported kind
  slot : kind.slotPrefix.toList <+: item.slot.toList
  unit : UnitAdmitted item.unit
  mode : ModeAdmitted item.value

def unsupportedDetail (what token : String) (profile : Profile) : String :=
  s!"unsupported {what} '{token}' for profile '{profile.id}' (exact closed vocabulary)"

/-- The error of the first check a candidate fails. -/
inductive Violation (profile : Profile) (item : ExternalItem) : SemanticsError → Prop
  | unknown (hclass : profile.classify item.externalClass = .unknown) :
      Violation profile item (.unknownClass item.externalClass profile.id)
  | outOfScenario {reason : String} (hclass : profile.classify item.externalClass = .outOfScenario reason) :
      Violation profile item (.outOfScenario item.externalClass reason profile.id)
  | slot {kind : VerdantKind} (hclass : profile.classify item.externalClass = .supported kind)
      (hslot : ¬ kind.slotPrefix.toList <+: item.slot.toList) :
      Violation profile item (.slotMismatch item.externalClass kind.asStr item.slot profile.id)
  | unit {kind : VerdantKind} (hclass : profile.classify item.externalClass = .supported kind)
      (hslot : kind.slotPrefix.toList <+: item.slot.toList) (hunit : ¬ UnitAdmitted item.unit) :
      Violation profile item (.invalidInput "unit" (unsupportedDetail "unit" item.unit.asStr profile))
  | mode {kind : VerdantKind} {mode : OpMode} (hclass : profile.classify item.externalClass = .supported kind)
      (hslot : kind.slotPrefix.toList <+: item.slot.toList) (hunit : UnitAdmitted item.unit)
      (hvalue : item.value = .mode mode) (hmode : ¬ ModeAdmitted item.value) :
      Violation profile item (.invalidInput "mode" (unsupportedDetail "mode" mode.asStr profile))

theorem checkItem_cases (profile : Profile) (item : ExternalItem) :
    (∃ kind, checkItem profile item = .ok kind ∧ Admitted profile item kind) ∨
      ∃ e, checkItem profile item = .error e ∧ Violation profile item e := by
  unfold checkItem
  cases hclass : profile.classify item.externalClass with
  | unknown => exact .inr ⟨_, rfl, .unknown hclass⟩
  | outOfScenario reason => exact .inr ⟨_, rfl, .outOfScenario hclass⟩
  | supported kind =>
    simp only
    by_cases hslot : kind.slotPrefix.toList <+: item.slot.toList
    · rw [if_neg (not_not.2 hslot)]
      rcases unsupportedToken_cases profile item.unit item.value with ⟨htoken, hunit, hmode⟩ | ⟨htoken, hunit⟩ |
        ⟨mode, hvalue, htoken, hunit, hmode⟩
      · rw [htoken]
        exact .inl ⟨kind, rfl, hclass, hslot, hunit, hmode⟩
      · rw [htoken]
        exact .inr ⟨_, rfl, .unit hclass hslot hunit⟩
      · rw [htoken]
        exact .inr ⟨_, rfl, .mode hclass hslot hunit hvalue hmode⟩
    · rw [if_pos hslot]
      exact .inr ⟨_, rfl, .slot hclass hslot⟩

theorem Admitted.check {profile : Profile} {item : ExternalItem} {kind : VerdantKind} (h : Admitted profile item kind) :
    checkItem profile item = .ok kind := by
  unfold checkItem
  rw [h.supported]
  simp only
  rw [if_neg (not_not.2 h.slot)]
  rcases unsupportedToken_cases profile item.unit item.value with ⟨htoken, -⟩ | ⟨-, hunit⟩ | ⟨_, -, -, -, hmode⟩
  · rw [htoken]
  · exact absurd h.unit hunit
  · exact absurd h.mode hmode

theorem admitted_of_check {profile : Profile} {item : ExternalItem} {kind : VerdantKind}
    (h : checkItem profile item = .ok kind) : Admitted profile item kind := by
  rcases checkItem_cases profile item with ⟨kind', hok, hadmitted⟩ | ⟨e, herror, -⟩
  · rw [h] at hok
    cases hok
    exact hadmitted
  · rw [h] at herror
    exact nomatch herror

/-! ### All candidates -/

theorem classifyItems_eq_ok {profile : Profile} {items : List ExternalItem} {classified : List (ExternalItem × VerdantKind)} :
    classifyItems profile items = .ok classified ↔
      classified.map Prod.fst = items ∧ ∀ x ∈ classified, Admitted profile x.1 x.2 := by
  induction items generalizing classified with
  | nil =>
    constructor
    · intro h
      cases h
      exact ⟨rfl, fun x hx => absurd hx List.not_mem_nil⟩
    · rintro ⟨hmap, -⟩
      rw [List.map_eq_nil_iff.1 hmap]
      rfl
  | cons item items ih =>
    unfold classifyItems
    constructor
    · intro h
      obtain ⟨kind, hkind, h⟩ := Result.bind_eq_ok.1 h
      obtain ⟨rest, hrest, h⟩ := Result.bind_eq_ok.1 h
      cases h
      obtain ⟨hmap, hall⟩ := ih.1 hrest
      refine ⟨by rw [List.map_cons, hmap], fun x hx => ?_⟩
      rcases List.mem_cons.1 hx with rfl | hx
      · exact admitted_of_check hkind
      · exact hall x hx
    · rintro ⟨hmap, hall⟩
      cases classified with
      | nil => exact nomatch hmap
      | cons x rest =>
        rw [List.map_cons, List.cons.injEq] at hmap
        obtain ⟨rfl, hmap⟩ := hmap
        rw [(hall x List.mem_cons_self).check, Result.ok_bind,
          ih.2 ⟨hmap, fun y hy => hall y (List.mem_cons_of_mem _ hy)⟩]
        rfl

theorem classifyItems_eq_error {profile : Profile} {items : List ExternalItem} {e : SemanticsError}
    (h : classifyItems profile items = .error e) : ∃ front item back, items = front ++ item :: back ∧
      (∀ x ∈ front, ∃ kind, Admitted profile x kind) ∧ Violation profile item e := by
  induction items with
  | nil => exact nomatch h
  | cons item items ih =>
    unfold classifyItems at h
    rcases checkItem_cases profile item with ⟨kind, hok, hadmitted⟩ | ⟨e', herror, hviolation⟩
    · rw [hok, Result.ok_bind] at h
      cases hrest : classifyItems profile items with
      | ok rest =>
        rw [hrest] at h
        exact nomatch h
      | error e' =>
        rw [hrest] at h
        cases h
        obtain ⟨front, first, back, hitems, hfront, hviolation⟩ := ih hrest
        refine ⟨item :: front, first, back, by rw [hitems]; rfl, fun x hx => ?_, hviolation⟩
        rcases List.mem_cons.1 hx with rfl | hx
        · exact ⟨kind, hadmitted⟩
        · exact hfront x hx
    · rw [herror] at h
      cases h
      exact ⟨[], item, items, rfl, fun x hx => absurd hx List.not_mem_nil, hviolation⟩

/-! ### Slots -/

/-- The candidates of a slot. -/
def claimants (items : List ExternalItem) (slot : String) : List ExternalItem := items.filter fun item => item.slot = slot

/-- More than one candidate claims the slot. -/
def Contested (items : List ExternalItem) (slot : String) : Prop := 2 ≤ (claimants items slot).length

theorem length_claimants (items : List ExternalItem) (slot : String) :
    (claimants items slot).length = (items.map ExternalItem.slot).count slot := by
  unfold claimants
  rw [List.count_eq_countP, List.countP_map, List.countP_eq_length_filter]
  congr 1

theorem nodup_slots_iff (items : List ExternalItem) :
    (items.map ExternalItem.slot).Nodup ↔ ∀ slot, ¬ Contested items slot := by
  rw [List.nodup_iff_count_le_one]
  refine forall_congr' fun slot => ?_
  unfold Contested
  rw [length_claimants]
  omega

theorem Contested.mem {items : List ExternalItem} {slot : String} (h : Contested items slot) :
    slot ∈ items.map ExternalItem.slot := by
  unfold Contested at h
  rw [length_claimants] at h
  exact List.count_pos_iff.1 (by omega)

theorem perm_contested {items other : List ExternalItem} (h : items.Perm other) {slot : String} :
    Contested items slot ↔ Contested other slot := by
  unfold Contested
  rw [length_claimants, length_claimants, (h.map ExternalItem.slot).count_eq]

theorem checkCollisions_cases (profile : Profile) (items : List ExternalItem) :
    (checkCollisions profile items = .ok () ∧ (items.map ExternalItem.slot).Nodup) ∨
      ∃ slot, Contested items slot ∧ (∀ other, Contested items other → slot ≤ other) ∧
        checkCollisions profile items =
          .error (.collision slot (sortBy id ((claimants items slot).map ExternalItem.sourceKey)) profile.id) := by
  unfold checkCollisions
  cases hfind : (bySlot items).find? fun group => 1 < group.2.length with
  | none =>
    left
    refine ⟨rfl, (nodup_slots_iff items).2 fun slot hcontested => ?_⟩
    have hgroup : (slot, claimants items slot) ∈ bySlot items := by
      refine List.mem_map.2 ⟨slot, ?_, rfl⟩
      rw [mem_sortBy, List.mem_dedup]
      exact hcontested.mem
    have hnot := List.find?_eq_none.1 hfind _ hgroup
    rw [decide_eq_true_eq] at hnot
    exact hnot hcontested
  | some group =>
    right
    obtain ⟨hmany, front, back, hsplit, hfront⟩ := List.find?_eq_some_iff_append.1 hfind
    obtain ⟨slot, claiming⟩ := group
    rw [decide_eq_true_eq] at hmany
    have hgroup : (slot, claiming) ∈ bySlot items := by
      rw [hsplit]
      simp
    obtain ⟨_, -, hpair⟩ := List.mem_map.1 hgroup
    cases hpair
    refine ⟨slot, hmany, fun other hother => ?_, rfl⟩
    -- the groups are in slot order, and those in front are not contested
    have hslots : ((bySlot items).map Prod.fst).Pairwise (· < ·) := by
      have hfst : (bySlot items).map Prod.fst = sortBy id (items.map ExternalItem.slot).dedup := by
        unfold bySlot
        rw [List.map_map]
        exact List.map_id _
      rw [hfst]
      exact pairwise_lt_sortBy (by rw [List.map_id']; exact List.nodup_dedup _)
    have hin : (other, claimants items other) ∈ bySlot items := by
      refine List.mem_map.2 ⟨other, ?_, rfl⟩
      rw [mem_sortBy, List.mem_dedup]
      exact hother.mem
    rw [hsplit] at hin hslots
    rcases List.mem_append.1 hin with hin | hin
    · have hnot := hfront _ hin
      rw [Bool.not_eq_true', decide_eq_false_iff_not] at hnot
      exact absurd hother hnot
    · rcases List.mem_cons.1 hin with heq | hin
      · exact le_of_eq (congrArg Prod.fst heq).symm
      · rw [List.map_append, List.map_cons] at hslots
        have hlater := (List.pairwise_cons.1 (List.pairwise_append.1 hslots).2.1).1
        exact le_of_lt (hlater other (List.mem_map.2 ⟨_, hin, rfl⟩))

/-! ### Content -/

theorem toList_contentLine (item : ExternalItem) : item.contentLine.toList =
    item.slot.toList ++ '\x1f' :: (joinText '\x1f' [item.unit.asStr, item.value.toJson]).toList := by
  unfold ExternalItem.contentLine joinText
  simp

/-- Lines of distinct slots are in the order of their slots: the separator is below every token character. -/
theorem contentLine_lt {a b : ExternalItem} (h : a.slot < b.slot) : a.contentLine < b.contentLine := by
  have hsep : ∀ c ∈ b.slot.toList, '\x1f' < c := by
    intro c hc
    have hchar := List.all_eq_true.1 b.verdantSlot.valid.2.2 c hc
    have hlow : ∀ d : Char, idChar d = true → '\x1f' < d := by
      intro d hd
      by_contra hle
      have hnat : d.toNat ≤ 0x1f := Char.le_def.1 (not_lt.1 hle)
      have hnone : ∀ n ≤ 0x1f, idChar (Char.ofNat n) = false := by decide
      rw [← Char.ofNat_toNat d, hnone d.toNat hnat] at hd
      exact Bool.false_ne_true hd
    exact hlow c hchar
  rw [String.lt_iff_toList_lt, toList_contentLine, toList_contentLine]
  exact append_cons_lt hsep h

theorem contentLine_bindingOf (classified : ExternalItem × VerdantKind) :
    (bindingOf classified).contentLine = classified.1.contentLine := rfl

/-- The lines sorted as texts are the lines of the candidates sorted by slot. -/
theorem contentLines_eq {items : List ExternalItem} {lines : List String}
    (hslots : (items.map ExternalItem.slot).Nodup) (hlines : lines.Perm (items.map ExternalItem.contentLine)) :
    sortBy id lines = (sortBy ExternalItem.slot items).map ExternalItem.contentLine := by
  refine sortBy_eq_of_sorted ?_ (hlines.trans ((perm_sortBy ExternalItem.slot items).map _).symm)
  exact List.pairwise_map.2 ((pairwise_lt_sortBy hslots).imp fun hab => contentLine_lt hab)

/-! ### Conversions -/

section Convert

variable (digest : String → String) (profile : Profile)

theorem convert_eq_ok {site : ExternalSite} {conversion : Conversion} : convert digest site profile = .ok conversion ↔
    ∃ classified, classifyItems profile site.sortedBySourceKey = .ok classified ∧
      (site.items.map ExternalItem.slot).Nodup ∧ conversion =
        ⟨⟨profile.id, site.inputDigest digest, site.contentDigest digest,
            sortBy ItemOutcome.verdantSlot (classified.map outcomeOf)⟩,
          sortBy (fun binding => binding.verdantId.text) (classified.map bindingOf)⟩ := by
  have hsorted : site.sortedBySourceKey.Perm site.items := perm_sortBy _ _
  have hslots : (site.sortedBySourceKey.map ExternalItem.slot).Nodup ↔ (site.items.map ExternalItem.slot).Nodup :=
    (hsorted.map ExternalItem.slot).nodup_iff
  have hcontent : ∀ classified, classifyItems profile site.sortedBySourceKey = .ok classified →
      (site.items.map ExternalItem.slot).Nodup →
      sortBy id ((sortBy (fun binding : Binding => binding.verdantId.text) (classified.map bindingOf)).map
        Binding.contentLine) = (sortBy ExternalItem.slot site.items).map ExternalItem.contentLine := by
    intro classified hclassified hnodup
    refine contentLines_eq hnodup ?_
    have hperm := (perm_sortBy (fun binding : Binding => binding.verdantId.text) (classified.map bindingOf)).map
      Binding.contentLine
    have hlines : (classified.map bindingOf).map Binding.contentLine =
        site.sortedBySourceKey.map ExternalItem.contentLine := by
      rw [← (classifyItems_eq_ok.1 hclassified).1, List.map_map, List.map_map]
      rfl
    rw [hlines] at hperm
    exact hperm.trans (hsorted.map _)
  unfold convert
  constructor
  · intro h
    obtain ⟨classified, hclassified, h⟩ := Result.bind_eq_ok.1 h
    obtain ⟨_, hcollisions, h⟩ := Result.bind_eq_ok.1 h
    cases h
    have hitems := (classifyItems_eq_ok.1 hclassified).1
    have hnodup : (site.items.map ExternalItem.slot).Nodup := by
      rcases checkCollisions_cases profile (classified.map Prod.fst) with ⟨-, hnodup⟩ | ⟨slot, -, -, herror⟩
      · rw [hitems] at hnodup
        exact hslots.1 hnodup
      · rw [hcollisions] at herror
        exact nomatch herror
    refine ⟨classified, hclassified, hnodup, ?_⟩
    simp only [hcontent classified hclassified hnodup]
    rfl
  · rintro ⟨classified, hclassified, hnodup, rfl⟩
    have hitems := (classifyItems_eq_ok.1 hclassified).1
    have hcollisions : checkCollisions profile (classified.map Prod.fst) = .ok () := by
      rcases checkCollisions_cases profile (classified.map Prod.fst) with ⟨hok, -⟩ | ⟨slot, hcontested, -, -⟩
      · exact hok
      · rw [hitems] at hcontested
        exact absurd hcontested ((nodup_slots_iff _).1 (hslots.2 hnodup) slot)
    have hclassified' : classifyItems profile (sortBy ExternalItem.sourceKey site.items) = .ok classified := hclassified
    rw [hclassified', Result.ok_bind, hcollisions, Result.ok_bind]
    simp only [hcontent classified hclassified hnodup]
    rfl

theorem sortedBySourceKey_eq_of_perm {site other : ExternalSite} (h : other.items.Perm site.items) :
    other.sortedBySourceKey = site.sortedBySourceKey := sortBy_eq_of_perm other.distinct h

theorem convert_eq_of_perm {site other : ExternalSite} (h : other.items.Perm site.items) :
    convert digest other profile = convert digest site profile := by
  have hsorted := sortedBySourceKey_eq_of_perm h
  have hinput : other.inputDigest digest = site.inputDigest digest := by
    unfold ExternalSite.inputDigest ExternalSite.canonicalInputBytes
    rw [hsorted]
  have hordered : sortBy ExternalItem.sourceKey other.items = sortBy ExternalItem.sourceKey site.items := hsorted
  unfold convert
  rw [hordered, hinput]

/-- What a successful conversion keeps of the candidates. -/
structure Preserves (site : ExternalSite) (conversion : Conversion) : Prop where
  /-- One binding and one outcome for each candidate, of the kind of its class, with its fields as they are. -/
  each : ∃ classified : List (ExternalItem × VerdantKind), (classified.map Prod.fst).Perm site.items ∧
    (∀ x ∈ classified, Admitted profile x.1 x.2) ∧ conversion.bindings.Perm (classified.map bindingOf) ∧
      conversion.record.items.Perm (classified.map outcomeOf)
  bindings : conversion.bindings.Pairwise fun a b => a.verdantId.text < b.verdantId.text
  outcomes : conversion.record.items.Pairwise fun a b => a.verdantSlot < b.verdantSlot
  profileId : conversion.record.profileId = profile.id
  inputDigest : conversion.record.inputDigest = site.inputDigest digest
  contentDigest : conversion.record.contentDigest = site.contentDigest digest

/-- Why a site is not converted. -/
inductive Refused (site : ExternalSite) : SemanticsError → Prop
  | first {front back : List ExternalItem} {item : ExternalItem} {e : SemanticsError}
      (order : site.sortedBySourceKey = front ++ item :: back) (before : ∀ x ∈ front, ∃ kind, Admitted profile x kind)
      (violation : Violation profile item e) : Refused site e
  | collision {slot : String} (admitted : ∀ x ∈ site.items, ∃ kind, Admitted profile x kind)
      (contested : Contested site.items slot) (smallest : ∀ other, Contested site.items other → slot ≤ other) :
      Refused site (.collision slot (sortBy id ((claimants site.items slot).map ExternalItem.sourceKey)) profile.id)

/-- What the conversion of any site is. -/
structure ExactConversion : Prop where
  /-- The order of the candidates changes nothing, down to the JSON. -/
  orderFree : ∀ site other : ExternalSite, other.items.Perm site.items →
    convert digest other profile = convert digest site profile ∧
      renderConversion (convert digest other profile) = renderConversion (convert digest site profile)
  succeeds : ∀ site : ExternalSite, (∃ conversion, convert digest site profile = .ok conversion) ↔
    (∀ item ∈ site.items, ∃ kind, Admitted profile item kind) ∧ (site.items.map ExternalItem.slot).Nodup
  preserves : ∀ (site : ExternalSite) (conversion : Conversion), convert digest site profile = .ok conversion →
    Preserves digest profile site conversion
  refuses : ∀ (site : ExternalSite) (e : SemanticsError), convert digest site profile = .error e → Refused profile site e

theorem classified_of_admitted {items : List ExternalItem} (h : ∀ item ∈ items, ∃ kind, Admitted profile item kind) :
    ∃ classified, classifyItems profile items = .ok classified := by
  cases hclassified : classifyItems profile items with
  | ok classified => exact ⟨classified, rfl⟩
  | error e =>
    obtain ⟨front, item, back, hitems, -, hviolation⟩ := classifyItems_eq_error hclassified
    obtain ⟨kind, hadmitted⟩ := h item (by rw [hitems]; simp)
    have hcheck := hadmitted.check
    cases hviolation with
    | unknown hclass => exact absurd (hclass.symm.trans hadmitted.supported) (by simp)
    | outOfScenario hclass => exact absurd (hclass.symm.trans hadmitted.supported) (by simp)
    | slot hclass hslot =>
      cases hclass.symm.trans hadmitted.supported
      exact absurd hadmitted.slot hslot
    | unit hclass hslot hunit => exact absurd hadmitted.unit hunit
    | mode hclass hslot hunit hvalue hmode => exact absurd hadmitted.mode hmode

theorem admitted_of_classified {items : List ExternalItem} {classified : List (ExternalItem × VerdantKind)}
    (h : classifyItems profile items = .ok classified) : ∀ item ∈ items, ∃ kind, Admitted profile item kind := by
  obtain ⟨hmap, hall⟩ := classifyItems_eq_ok.1 h
  intro item hitem
  rw [← hmap] at hitem
  obtain ⟨x, hx, rfl⟩ := List.mem_map.1 hitem
  exact ⟨x.2, hall x hx⟩

theorem preserves_of_convert {site : ExternalSite} {conversion : Conversion}
    (h : convert digest site profile = .ok conversion) : Preserves digest profile site conversion := by
  obtain ⟨classified, hclassified, hnodup, rfl⟩ := (convert_eq_ok digest profile).1 h
  obtain ⟨hmap, hall⟩ := classifyItems_eq_ok.1 hclassified
  have hslots : (classified.map fun x => x.1.slot).Nodup := by
    have hsame : (classified.map fun x => x.1.slot) = site.sortedBySourceKey.map ExternalItem.slot := by
      rw [← hmap, List.map_map]
      rfl
    rw [hsame]
    exact ((perm_sortBy ExternalItem.sourceKey site.items).map ExternalItem.slot).nodup_iff.2 hnodup
  constructor
  · exact ⟨classified, (List.Perm.of_eq hmap).trans (perm_sortBy _ _), hall, perm_sortBy _ _, perm_sortBy _ _⟩
  · refine pairwise_lt_sortBy ?_
    rw [List.map_map]
    exact hslots
  · refine pairwise_lt_sortBy ?_
    rw [List.map_map]
    exact hslots
  · rfl
  · rfl
  · rfl

theorem refused_of_convert {site : ExternalSite} {e : SemanticsError} (h : convert digest site profile = .error e) :
    Refused profile site e := by
  unfold convert at h
  have hperm : (sortBy ExternalItem.sourceKey site.items).Perm site.items := perm_sortBy _ _
  cases hclassified : classifyItems profile (sortBy ExternalItem.sourceKey site.items) with
  | error e' =>
    rw [hclassified] at h
    cases h
    obtain ⟨front, item, back, hitems, hfront, hviolation⟩ := classifyItems_eq_error hclassified
    exact .first hitems hfront hviolation
  | ok classified =>
    rw [hclassified, Result.ok_bind] at h
    have hitems := (classifyItems_eq_ok.1 hclassified).1
    rw [hitems] at h
    rcases checkCollisions_cases profile (sortBy ExternalItem.sourceKey site.items) with ⟨hok, -⟩ |
      ⟨slot, hcontested, hsmallest, herror⟩
    · rw [hok] at h
      exact nomatch h
    · rw [herror] at h
      cases h
      have hkeys : sortBy id ((claimants (sortBy ExternalItem.sourceKey site.items) slot).map ExternalItem.sourceKey) =
          sortBy id ((claimants site.items slot).map ExternalItem.sourceKey) := by
        have hclaim : (claimants (sortBy ExternalItem.sourceKey site.items) slot).Perm (claimants site.items slot) :=
          hperm.filter _
        refine sortBy_eq_of_perm ?_ (hclaim.map ExternalItem.sourceKey)
        rw [List.map_id]
        have hsub : ((claimants site.items slot).map ExternalItem.sourceKey).Sublist
            (site.items.map ExternalItem.sourceKey) := List.filter_sublist.map _
        exact (hclaim.map ExternalItem.sourceKey).nodup_iff.2 (hsub.nodup site.distinct)
      rw [hkeys]
      refine .collision (fun x hx => ?_) ((perm_contested hperm).1 hcontested)
        fun other hother => hsmallest other ((perm_contested hperm).2 hother)
      exact admitted_of_classified profile hclassified x (hperm.mem_iff.2 hx)

/-- The conversion of every site: free of order, exact on success, and deterministic in its refusals. -/
theorem convert_exact : ExactConversion digest profile := by
  constructor
  · intro site other h
    have hsame := convert_eq_of_perm digest profile h
    exact ⟨hsame, congrArg renderConversion hsame⟩
  · intro site
    have hmem : ∀ item, item ∈ site.sortedBySourceKey ↔ item ∈ site.items := fun item => mem_sortBy
    constructor
    · rintro ⟨conversion, h⟩
      obtain ⟨classified, hclassified, hnodup, -⟩ := (convert_eq_ok digest profile).1 h
      exact ⟨fun item hitem => admitted_of_classified profile hclassified item ((hmem item).2 hitem), hnodup⟩
    · rintro ⟨hadmitted, hnodup⟩
      obtain ⟨classified, hclassified⟩ := classified_of_admitted profile fun item hitem =>
        hadmitted item ((hmem item).1 hitem)
      exact ⟨_, (convert_eq_ok digest profile).2 ⟨classified, hclassified, hnodup, rfl⟩⟩
  · exact fun _ _ h => preserves_of_convert digest profile h
  · exact fun _ _ h => refused_of_convert digest profile h

end Convert

end Verdant.Semantics
