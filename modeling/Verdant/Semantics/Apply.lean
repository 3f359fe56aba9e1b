import Verdant.Library.Cuts
import Verdant.Semantics.Conversion

/-!
# Applying the same input again

The input of a site is written as one line for each candidate, with the label as it is: a label may hold the separators
of the fields and of the lines.  Converted candidates with the same line are the same (`inputLine_injective`), so what two
sites of one text can differ in is where their lines begin.  An application is a no-op for exactly the candidates it was
built from if and only if no other site of the same text breaks its labels elsewhere (`appliesExactly_iff`); a site without
a line break in a label has no such other.
-/

namespace Verdant.Semantics

open TextCodec

/-! ### Lines -/

theorem le_of_mem_toJson {value : Value} {c : Char} (h : c ∈ value.toJson.toList) : 0x20 ≤ c.toNat := by
  have hplain : ∀ l : List Char, (l.all fun d => decide (0x20 ≤ d.toNat)) = true → ∀ d ∈ l, 0x20 ≤ d.toNat :=
    fun _ h => forall_mem_of_all h
  have hmembers : ∀ (first : Bool) (members : List Json.Member), (∀ m ∈ members, ∀ d ∈ m.text.toList, 0x20 ≤ d.toNat) →
      ∀ d ∈ (Json.membersText first members).toList, 0x20 ≤ d.toNat := by
    intro first members
    induction members generalizing first with
    | nil => exact fun _ d hd => absurd hd List.not_mem_nil
    | cons m members ih =>
      intro hall d hd
      have hcomma : ∀ d ∈ (if first then "" else ",").toList, 0x20 ≤ d.toNat := by
        cases first <;> exact hplain _ (by decide)
      have hcolon : ∀ d ∈ ":".toList, 0x20 ≤ d.toNat := hplain _ (by decide)
      unfold Json.membersText at hd
      simp only [String.toList_append, List.mem_append] at hd
      rcases hd with (((hd | hd) | hd) | hd) | hd
      · exact hcomma d hd
      · exact Json.le_of_mem_quote hd
      · exact hcolon d hd
      · exact hall m List.mem_cons_self d hd
      · exact ih false (fun m' hm' => hall m' (List.mem_cons_of_mem _ hm')) d hd
  have hbraces : ∀ d ∈ "\x7b".toList ++ "\x7d".toList, 0x20 ≤ d.toNat := hplain _ (by decide)
  have hquoted : ∀ s : String, ∀ d ∈ (Json.quote s).toList, 0x20 ≤ d.toNat := fun s d hd => Json.le_of_mem_quote hd
  have htexts : ∀ m ∈ value.members, ∀ d ∈ m.text.toList, 0x20 ≤ d.toNat := by
    have hbool : ∀ b : Bool, ∀ d ∈ (if b then "true" else "false").toList, 0x20 ≤ d.toNat := by
      intro b
      cases b <;> exact hplain _ (by decide)
    intro m hm d hd
    cases value with
    | diagnostic diagnostic =>
      cases diagnostic <;> simp only [Value.members, List.mem_cons, List.not_mem_nil, or_false] at hm <;>
        rcases hm with rfl | rfl | rfl <;> exact hquoted _ d hd
    | bool b =>
      simp only [Value.members, List.mem_cons, List.not_mem_nil, or_false] at hm
      rcases hm with rfl | rfl
      · exact hquoted _ d hd
      · exact hbool b d hd
    | missing =>
      rw [List.mem_singleton.1 hm] at hd
      exact hquoted _ d hd
    | _ =>
      simp only [Value.members, List.mem_cons, List.not_mem_nil, or_false] at hm
      rcases hm with rfl | rfl <;> exact hquoted _ d hd
  rw [Value.toJson_eq, Json.objectText, String.toList_append, String.toList_append] at h
  simp only [List.mem_append] at h
  rcases h with (h | h) | h
  · exact hbraces c (List.mem_append_left _ h)
  · exact hmembers true value.members htexts c h
  · exact hbraces c (List.mem_append_right _ h)

/-- Neither the separator of the fields nor that of the lines. -/
def Unbroken (s : String) : Prop := '\x1f' ∉ s.toList ∧ '\n' ∉ s.toList

theorem unbroken_of_isId {raw : String} (h : IsId raw) : Unbroken raw := by
  constructor
  · intro hc
    exact absurd (List.all_eq_true.1 h.2.2 _ hc) (by decide)
  · intro hc
    exact absurd (List.all_eq_true.1 h.2.2 _ hc) (by decide)

theorem unbroken_toJson (value : Value) : Unbroken value.toJson := by
  constructor
  · intro hc
    exact absurd (le_of_mem_toJson hc) (by decide)
  · intro hc
    exact absurd (le_of_mem_toJson hc) (by decide)

theorem UnitAdmitted.unbroken {unit : MeasureUnit} (h : UnitAdmitted unit) : Unbroken unit.asStr := by
  have hall : ∀ token ∈ supportedUnits, '\x1f' ∉ token.toList ∧ '\n' ∉ token.toList := by decide
  exact hall _ h.2

theorem ExternalItem.slot_unbroken (item : ExternalItem) : Unbroken item.slot := unbroken_of_isId item.verdantSlot.valid

theorem toList_inputLine (item : ExternalItem) : item.inputLine.toList = item.sourceKey.toList ++ '\x1f' ::
    (item.externalClass.toList ++ '\x1f' :: (item.slot.toList ++ '\x1f' ::
      ((item.label.toList ++ '\x1f' :: item.unit.asStr.toList) ++ '\x1f' :: item.value.toJson.toList))) := by
  unfold ExternalItem.inputLine joinText
  simp

theorem value_valid {profile : Profile} {item : ExternalItem} {kind : VerdantKind} (h : Admitted profile item kind) :
    item.value.Valid := by
  cases hvalue : item.value with
  | mode mode =>
    obtain ⟨hknown, -⟩ := h.mode mode hvalue
    cases mode with
    | unknown raw => exact nomatch hknown
    | occupied => exact ⟨"occupied", rfl⟩
    | unoccupied => exact ⟨"unoccupied", rfl⟩
    | standby => exact ⟨"standby", rfl⟩
  | integer n =>
    have hrange := item.value_inRange
    rw [hvalue] at hrange
    exact hrange
  | _ => exact trivial

/-- Converted candidates are told apart by their lines, whatever their labels hold. -/
theorem inputLine_injective {profile : Profile} {a b : ExternalItem} {ka kb : VerdantKind} (ha : Admitted profile a ka)
    (hb : Admitted profile b kb) (h : a.inputLine = b.inputLine) : a = b := by
  have hlist := congrArg String.toList h
  rw [toList_inputLine, toList_inputLine] at hlist
  obtain ⟨hkey, hlist⟩ := append_cons_inj (unbroken_of_isId a.key_token).1 (unbroken_of_isId b.key_token).1 hlist
  obtain ⟨hclass, hlist⟩ := append_cons_inj (unbroken_of_isId a.class_token).1 (unbroken_of_isId b.class_token).1 hlist
  obtain ⟨hslot, hlist⟩ := append_cons_inj a.slot_unbroken.1 b.slot_unbroken.1 hlist
  obtain ⟨hlist, hvalue⟩ := append_cons_inj_right (unbroken_toJson a.value).1 (unbroken_toJson b.value).1 hlist
  obtain ⟨hlabel, hunit⟩ := append_cons_inj_right ha.unit.unbroken.1 hb.unit.unbroken.1 hlist
  have hunits : a.unit = b.unit := by
    have hparse := MeasureUnit.parse_asStr a.unit_parsed
    rw [String.toList_injective hunit, MeasureUnit.parse_asStr b.unit_parsed] at hparse
    exact (Except.ok.inj hparse).symm
  exact ExternalItem.ext_fields (String.toList_injective hkey) (String.toList_injective hclass)
    (InstalledId.ext_text (String.toList_injective hslot)) (String.toList_injective hlabel) hunits
    (Value.toJson_injective (value_valid ha) (value_valid hb) (String.toList_injective hvalue))

/-- The line breaks of a line are those of its label. -/
theorem count_inputLine {profile : Profile} {item : ExternalItem} {kind : VerdantKind} (h : Admitted profile item kind) :
    item.inputLine.toList.count '\n' = item.label.toList.count '\n' := by
  have hnone : ∀ s : String, Unbroken s → s.toList.count '\n' = 0 := fun s hs => List.count_eq_zero.2 hs.2
  have hsep : ('\x1f' == '\n') = false := by decide
  rw [toList_inputLine]
  simp only [List.count_append, List.count_cons, hsep, Bool.false_eq_true, if_false, hnone _ h.unit.unbroken,
    hnone _ (unbroken_of_isId item.key_token), hnone _ (unbroken_of_isId item.class_token), hnone _ item.slot_unbroken,
    hnone _ (unbroken_toJson item.value)]
  omega

theorem count_contentLine {profile : Profile} {item : ExternalItem} {kind : VerdantKind}
    (h : Admitted profile item kind) : item.contentLine.toList.count '\n' = 0 := by
  have hsep : ('\x1f' == '\n') = false := by decide
  have hlist : item.contentLine.toList =
      item.slot.toList ++ '\x1f' :: (item.unit.asStr.toList ++ '\x1f' :: item.value.toJson.toList) := by
    unfold ExternalItem.contentLine joinText
    simp
  rw [hlist]
  simp only [List.count_append, List.count_cons, hsep, Bool.false_eq_true, if_false,
    List.count_eq_zero.2 item.slot_unbroken.2, List.count_eq_zero.2 h.unit.unbroken.2,
    List.count_eq_zero.2 (unbroken_toJson item.value).2]

/-! ### Sites of one text -/

/-- The sites have the same input and the same content, as texts. -/
structure SameText (site next : ExternalSite) : Prop where
  input : next.canonicalInputBytes = site.canonicalInputBytes
  content : next.canonicalContentBytes = site.canonicalContentBytes

/-- The line breaks of each label, in source-key order. -/
def labelBreaks (site : ExternalSite) : List Nat := site.sortedBySourceKey.map fun item => item.label.toList.count '\n'

def AllAdmitted (profile : Profile) (site : ExternalSite) : Prop := ∀ item ∈ site.items, ∃ kind, Admitted profile item kind

section Sites

variable {profile : Profile} {site next : ExternalSite}

theorem counts_eq_labelBreaks (h : AllAdmitted profile site) :
    ((site.sortedBySourceKey.map ExternalItem.inputLine).map fun f => f.toList.count '\n') = labelBreaks site := by
  rw [List.map_map]
  refine List.map_congr_left fun item hitem => ?_
  obtain ⟨kind, hadmitted⟩ := h item (mem_sortBy.1 hitem)
  exact count_inputLine hadmitted

/-- Sites of one text that break their labels alike have the same candidates. -/
theorem sorted_eq_of_sameText (hsite : AllAdmitted profile site) (hnext : AllAdmitted profile next)
    (hinput : next.canonicalInputBytes = site.canonicalInputBytes) (hbreaks : labelBreaks site = labelBreaks next) :
    next.sortedBySourceKey = site.sortedBySourceKey := by
  have hlines : next.sortedBySourceKey.map ExternalItem.inputLine = site.sortedBySourceKey.map ExternalItem.inputLine := by
    refine joinText_inj_of_count ?_ hinput
    rw [counts_eq_labelBreaks hsite, counts_eq_labelBreaks hnext, hbreaks]
  have hgo : ∀ xs ys : List ExternalItem, (∀ x ∈ xs, ∃ kind, Admitted profile x kind) →
      (∀ y ∈ ys, ∃ kind, Admitted profile y kind) →
      xs.map ExternalItem.inputLine = ys.map ExternalItem.inputLine → xs = ys := by
    intro xs
    induction xs with
    | nil => exact fun ys _ _ hmap => (List.map_eq_nil_iff.1 hmap.symm).symm
    | cons x xs ih =>
      intro ys hxs hys hmap
      cases ys with
      | nil => exact nomatch hmap
      | cons y ys =>
        rw [List.map_cons, List.map_cons, List.cons.injEq] at hmap
        obtain ⟨_, hx⟩ := hxs x List.mem_cons_self
        obtain ⟨_, hy⟩ := hys y List.mem_cons_self
        rw [inputLine_injective hx hy hmap.1,
          ih ys (fun z hz => hxs z (List.mem_cons_of_mem _ hz)) (fun z hz => hys z (List.mem_cons_of_mem _ hz)) hmap.2]
  exact hgo _ _ (fun x hx => hnext x (mem_sortBy.1 hx)) (fun y hy => hsite y (mem_sortBy.1 hy)) hlines

/-- Sites of one content have as many candidates. -/
theorem length_eq_of_content (hsite : AllAdmitted profile site) (hnext : AllAdmitted profile next)
    (h : next.canonicalContentBytes = site.canonicalContentBytes) : next.items.length = site.items.length := by
  have hcount : ∀ one : ExternalSite, AllAdmitted profile one →
      one.canonicalContentBytes.toList.count '\n' + 1 = one.items.length := by
    intro one hone
    have hlength := length_sortBy ExternalItem.slot one.items
    have hlines : ∀ item ∈ sortBy ExternalItem.slot one.items, item.contentLine.toList.count '\n' = 0 := by
      intro item hitem
      obtain ⟨kind, hadmitted⟩ := hone item (mem_sortBy.1 hitem)
      exact count_contentLine hadmitted
    unfold ExternalSite.canonicalContentBytes
    cases hitems : sortBy ExternalItem.slot one.items with
    | nil =>
      rw [hitems] at hlength
      exact absurd (List.length_eq_zero_iff.1 hlength.symm) one.nonempty
    | cons item items =>
      rw [hitems] at hlength hlines
      have hzero : ((item :: items).map ExternalItem.contentLine).map (fun f => f.toList.count '\n') =
          List.replicate (item :: items).length 0 := by
        rw [List.map_map]
        exact List.eq_replicate_iff.2 ⟨List.length_map _, fun n hn => by
          obtain ⟨x, hx, rfl⟩ := List.mem_map.1 hn
          exact hlines x hx⟩
      rw [List.map_cons] at hzero ⊢
      rw [count_joinText, hzero, List.sum_replicate, List.length_map, ← hlength, List.length_cons, smul_zero]
      omega
  have hfirst := hcount next hnext
  rw [h, hcount site hsite] at hfirst
  exact hfirst.symm

/-- A site without a line break in a label has no other of its text. -/
theorem labelBreaks_eq_of_plain (hsite : AllAdmitted profile site) (hnext : AllAdmitted profile next)
    (hplain : ∀ item ∈ site.items, '\n' ∉ item.label.toList) (h : SameText site next) :
    labelBreaks site = labelBreaks next := by
  have hlength := length_eq_of_content hsite hnext h.content
  have hsum : ∀ one : ExternalSite, AllAdmitted profile one →
      one.canonicalInputBytes.toList.count '\n' + 1 = (labelBreaks one).sum + one.items.length := by
    intro one hone
    have hcounts := counts_eq_labelBreaks hone
    have hsorted := length_sortBy ExternalItem.sourceKey one.items
    unfold ExternalSite.canonicalInputBytes
    cases hitems : one.sortedBySourceKey with
    | nil =>
      have hnil : (sortBy ExternalItem.sourceKey one.items).length = 0 := congrArg List.length hitems
      rw [hsorted] at hnil
      exact absurd (List.length_eq_zero_iff.1 hnil) one.nonempty
    | cons item items =>
      have hcons : (sortBy ExternalItem.sourceKey one.items).length = items.length + 1 := congrArg List.length hitems
      rw [hitems, List.map_cons] at hcounts
      rw [List.map_cons, count_joinText, hcounts, List.length_map]
      omega
  have hzero : ∀ n ∈ labelBreaks site, n = 0 := by
    intro n hn
    obtain ⟨item, hitem, rfl⟩ := List.mem_map.1 hn
    exact List.count_eq_zero.2 (hplain item (mem_sortBy.1 hitem))
  have hnone : (labelBreaks site).sum = 0 := List.sum_eq_zero hzero
  have hother : (labelBreaks next).sum = 0 := by
    have hfirst := hsum next hnext
    rw [h.input, hsum site hsite] at hfirst
    omega
  have hzero' : ∀ n ∈ labelBreaks next, n = 0 := List.sum_eq_zero_iff.1 hother
  have hsizes : (labelBreaks site).length = (labelBreaks next).length := by
    unfold labelBreaks ExternalSite.sortedBySourceKey
    rw [List.length_map, List.length_map, length_sortBy, length_sortBy, hlength]
  rw [List.eq_replicate_iff.2 ⟨rfl, hzero⟩, List.eq_replicate_iff.2 ⟨rfl, hzero'⟩, hsizes]

end Sites

/-! ### Applications -/

section Apply

variable {digest : String → String} {profile : Profile} {site next : ExternalSite} {old new : Conversion}

/-- An application of `next` to the state built from `site` is a no-op for the same candidates only, and otherwise takes
the next revision, or is refused where there is none. -/
structure AppliesExactly (digest : String → String) (profile : Profile) (site next : ExternalSite) (new : Conversion)
    (current : BindingSet) : Prop where
  noop : (∃ record, apply digest next profile current = .ok (.noop record)) ↔ next.items.Perm site.items
  applied : ¬ next.items.Perm site.items → current.revision.value.toNat < 2 ^ 32 - 1 →
    ∃ bound, apply digest next profile current = .ok (.applied new.record bound) ∧
      bound.revision.value.toNat = current.revision.value.toNat + 1 ∧ bound.bindings = new.bindings
  overflow : ¬ next.items.Perm site.items → current.revision.value.toNat = 2 ^ 32 - 1 →
    apply digest next profile current = .error (.revisionOverflow current.revision.value profile.id)

theorem allAdmitted_of_convert (h : convert digest site profile = .ok old) : AllAdmitted profile site :=
  (((convert_exact digest profile).succeeds site).1 ⟨old, h⟩).1

/-- The outcome is decided by the two texts. -/
theorem apply_of_sameText (hdigest : Function.Injective digest) (hold : convert digest site profile = .ok old)
    (hnew : convert digest next profile = .ok new) (revision : BindingRevision) :
    (SameText site next ∧
      apply digest next profile (BindingSet.fromConversion old revision) = .ok (.noop new.record)) ∨
    (¬ SameText site next ∧ apply digest next profile (BindingSet.fromConversion old revision) =
      match checkedSucc revision.value with
      | none => .error (.revisionOverflow revision.value profile.id)
      | some bumped => .ok (.applied new.record ⟨⟨bumped⟩, new.record.profileId, new.record.inputDigest,
          new.record.contentDigest, new.bindings⟩)) := by
  have hkept := (convert_exact digest profile).preserves site old hold
  have hkept' := (convert_exact digest profile).preserves next new hnew
  have happly : apply digest next profile (BindingSet.fromConversion old revision) =
      if new.record.profileId = old.record.profileId ∧ new.record.inputDigest = old.record.inputDigest ∧
          new.record.contentDigest = old.record.contentDigest then .ok (.noop new.record)
      else match checkedSucc revision.value with
        | none => .error (.revisionOverflow revision.value profile.id)
        | some bumped => .ok (.applied new.record ⟨⟨bumped⟩, new.record.profileId, new.record.inputDigest,
            new.record.contentDigest, new.bindings⟩) := by
    unfold apply
    rw [hnew]
    rfl
  rw [happly, hkept.profileId, hkept'.profileId, hkept.inputDigest, hkept'.inputDigest, hkept.contentDigest,
    hkept'.contentDigest]
  by_cases hsame : SameText site next
  · left
    refine ⟨hsame, if_pos ⟨rfl, ?_, ?_⟩⟩
    · exact congrArg digest hsame.input
    · exact congrArg digest hsame.content
  · right
    refine ⟨hsame, if_neg ?_⟩
    rintro ⟨-, hinput, hcontent⟩
    exact hsame ⟨hdigest hinput, hdigest hcontent⟩

theorem checkedSucc_of_lt {n : UInt32} (h : n.toNat < 2 ^ 32 - 1) :
    ∃ m, checkedSucc n = some m ∧ m.toNat = n.toNat + 1 := by
  have hsome : checkedSucc n = some (n + 1) := if_pos (by omega)
  exact ⟨n + 1, hsome, toNat_of_checkedSucc hsome⟩

theorem sameText_of_perm (h : next.items.Perm site.items) (hslots : (next.items.map ExternalItem.slot).Nodup) :
    SameText site next where
  input := by
    unfold ExternalSite.canonicalInputBytes
    rw [sortedBySourceKey_eq_of_perm h]
  content := by
    unfold ExternalSite.canonicalContentBytes
    rw [sortBy_eq_of_perm hslots h]

/-- An application meets its purpose exactly when the labels of a site with the same text break where those of the bound
site do; nothing is asked of the labels of a site that holds no line break in them. -/
theorem appliesExactly_iff (hdigest : Function.Injective digest) (hold : convert digest site profile = .ok old)
    (hnew : convert digest next profile = .ok new) (revision : BindingRevision) :
    (AppliesExactly digest profile site next new (BindingSet.fromConversion old revision) ↔
      (SameText site next → labelBreaks site = labelBreaks next)) ∧
    ((∀ item ∈ site.items, '\n' ∉ item.label.toList) → SameText site next → labelBreaks site = labelBreaks next) := by
  have hsite := allAdmitted_of_convert hold
  have hnext := allAdmitted_of_convert hnew
  have hslots := (((convert_exact digest profile).succeeds next).1 ⟨new, hnew⟩).2
  have houtcome := apply_of_sameText hdigest hold hnew revision
  refine ⟨⟨fun h hsame => ?_, fun h => ?_⟩, fun hplain hsame => labelBreaks_eq_of_plain hsite hnext hplain hsame⟩
  · have hnoop : apply digest next profile (BindingSet.fromConversion old revision) = .ok (.noop new.record) := by
      rcases houtcome with ⟨-, hnoop⟩ | ⟨hother, -⟩
      · exact hnoop
      · exact absurd hsame hother
    have hsorted := sortedBySourceKey_eq_of_perm (h.noop.1 ⟨_, hnoop⟩)
    unfold labelBreaks
    rw [hsorted]
  · rcases houtcome with ⟨hsame, hnoop⟩ | ⟨hother, happly⟩
    · have hperm : next.items.Perm site.items :=
        perm_of_sortBy_eq (sorted_eq_of_sameText hsite hnext hsame.input (h hsame))
      exact ⟨⟨fun _ => hperm, fun _ => ⟨_, hnoop⟩⟩, fun hnot => absurd hperm hnot, fun hnot => absurd hperm hnot⟩
    · have hnot : ¬ next.items.Perm site.items := fun hperm => hother (sameText_of_perm hperm hslots)
      have hrevision : (BindingSet.fromConversion old revision).revision = revision := rfl
      refine ⟨⟨fun ⟨record, hnoop⟩ => ?_, fun hperm => absurd hperm hnot⟩, fun _ hlt => ?_, fun _ hmax => ?_⟩
      · rw [happly] at hnoop
        cases hsucc : checkedSucc revision.value with
        | none =>
          rw [hsucc] at hnoop
          exact nomatch hnoop
        | some bumped =>
          rw [hsucc] at hnoop
          exact nomatch hnoop
      · obtain ⟨bumped, hsucc, hone⟩ := checkedSucc_of_lt hlt
        rw [hrevision] at hsucc hone
        rw [hsucc] at happly
        exact ⟨_, happly, hone, rfl⟩
      · have hsucc : checkedSucc revision.value = none := by
          rw [hrevision] at hmax
          exact if_neg (by omega)
        rw [hsucc] at happly
        exact happly

end Apply

/-! ### A break moved -/

namespace MovedBreak

def item (sourceKey externalClass slot label : String) (key_token : IsId sourceKey) (class_token : IsId externalClass)
    (slot_token : IsId slot) (label_valid : validateLabel label = .ok ()) : ExternalItem where
  sourceKey := sourceKey
  externalClass := externalClass
  verdantSlot := ⟨slot, slot_token⟩
  label := label
  unit := .known .degC
  value := .missing
  key_token := key_token
  class_token := class_token
  label_valid := label_valid
  unit_parsed := ⟨"degC", rfl⟩
  value_inRange := trivial

theorem keyA_valid : IsId "a" := by decide
theorem keyB_valid : IsId "b" := by decide
theorem keyC_valid : IsId "c" := by decide
theorem ahuClass_valid : IsId "brick:AHU" := by decide
theorem vavClass_valid : IsId "brick:VAV" := by decide
theorem ahuSlot_valid : IsId "ahu-1" := by decide
theorem vavSlot_valid : IsId "vav-1" := by decide
theorem labelX_valid : validateLabel "x" = .ok () := by decide
theorem labelZ_valid : validateLabel "z" = .ok () := by decide

def ahu : ExternalItem := item "a" "brick:AHU" "ahu-1" "x" keyA_valid ahuClass_valid ahuSlot_valid labelX_valid

/-- The label of the second candidate holds the lines of a third. -/
def site : ExternalSite where
  items := [ahu, item "b" "brick:VAV" "vav-1"
    "y\x1fdegC\x1f\x7b\"type\":\"missing\"\x7d\nc\x1fbrick:VAV\x1fvav-1\x1fz" keyB_valid vavClass_valid vavSlot_valid
    (by decide)]
  nonempty := List.cons_ne_nil _ _
  distinct := by decide

/-- The label of the first candidate holds the line of the second, and the third is a candidate. -/
def next : ExternalSite where
  items := [item "a" "brick:AHU" "ahu-1"
    "x\x1fdegC\x1f\x7b\"type\":\"missing\"\x7d\nb\x1fbrick:VAV\x1fvav-1\x1fy" keyA_valid ahuClass_valid ahuSlot_valid
    (by decide), item "c" "brick:VAV" "vav-1" "z" keyC_valid vavClass_valid vavSlot_valid labelZ_valid]
  nonempty := List.cons_ne_nil _ _
  distinct := by decide

def plain : ExternalSite where
  items := [ahu]
  nonempty := List.cons_ne_nil _ _
  distinct := by decide

theorem admitted_item {sourceKey externalClass slot label : String} {key_token : IsId sourceKey}
    {class_token : IsId externalClass} {slot_token : IsId slot} {label_valid : validateLabel label = .ok ()}
    {kind : VerdantKind} (hclass : Profile.pinned.classify externalClass = .supported kind)
    (hslot : kind.slotPrefix.toList <+: slot.toList) :
    Admitted .pinned (item sourceKey externalClass slot label key_token class_token slot_token label_valid) kind where
  supported := hclass
  slot := hslot
  unit := ⟨rfl, List.mem_cons_self⟩
  mode _ h := nomatch h

theorem admitted_ahu {label : String} {label_valid : validateLabel label = .ok ()} {key_token class_token slot_token} :
    Admitted .pinned (item "a" "brick:AHU" "ahu-1" label key_token class_token slot_token label_valid) .ahu :=
  admitted_item (by rfl) (by decide)

theorem admitted_vav {sourceKey label : String} {label_valid : validateLabel label = .ok ()}
    {key_token class_token slot_token} :
    Admitted .pinned (item sourceKey "brick:VAV" "vav-1" label key_token class_token slot_token label_valid) .vav :=
  admitted_item (by rfl) (by decide)

theorem site_converts (digest : String → String) : ∃ conversion, convert digest site .pinned = .ok conversion := by
  refine ((convert_exact digest .pinned).succeeds site).2 ⟨fun one hone => ?_, by decide⟩
  simp only [site, List.mem_cons, List.not_mem_nil, or_false] at hone
  rcases hone with rfl | rfl
  · exact ⟨_, admitted_ahu⟩
  · exact ⟨_, admitted_vav⟩

theorem next_converts (digest : String → String) : ∃ conversion, convert digest next .pinned = .ok conversion := by
  refine ((convert_exact digest .pinned).succeeds next).2 ⟨fun one hone => ?_, by decide⟩
  simp only [next, List.mem_cons, List.not_mem_nil, or_false] at hone
  rcases hone with rfl | rfl
  · exact ⟨_, admitted_ahu⟩
  · exact ⟨_, admitted_vav⟩

theorem plain_converts (digest : String → String) : ∃ conversion, convert digest plain .pinned = .ok conversion := by
  refine ((convert_exact digest .pinned).succeeds plain).2 ⟨fun one hone => ?_, by decide⟩
  rw [List.mem_singleton.1 hone]
  exact ⟨_, admitted_ahu⟩

end MovedBreak

/-- Every site is applied as it should to a state built from a plain label. -/
theorem plain_appliesExactly : ∃ old new, convert id MovedBreak.plain .pinned = .ok old ∧
    convert id MovedBreak.next .pinned = .ok new ∧
      AppliesExactly id .pinned MovedBreak.plain MovedBreak.next new (BindingSet.fromConversion old ⟨1⟩) := by
  obtain ⟨old, hold⟩ := MovedBreak.plain_converts id
  obtain ⟨new, hnew⟩ := MovedBreak.next_converts id
  obtain ⟨hiff, hplain⟩ := appliesExactly_iff Function.injective_id hold hnew ⟨1⟩
  refine ⟨old, new, hold, hnew, hiff.2 (hplain fun one hone => ?_)⟩
  rw [List.mem_singleton.1 hone]
  decide

/-- A site of other candidates is taken for the current one. -/
theorem moved_break_noop : ¬ ∀ (digest : String → String) (profile : Profile) (site next : ExternalSite)
    (old new : Conversion) (revision : BindingRevision), Function.Injective digest →
      convert digest site profile = .ok old → convert digest next profile = .ok new →
        AppliesExactly digest profile site next new (BindingSet.fromConversion old revision) := by
  intro h
  obtain ⟨old, hold⟩ := MovedBreak.site_converts id
  obtain ⟨new, hnew⟩ := MovedBreak.next_converts id
  have hexact := h id .pinned _ _ old new ⟨1⟩ Function.injective_id hold hnew
  have hsame : SameText MovedBreak.site MovedBreak.next := ⟨by decide +kernel, by decide +kernel⟩
  rcases apply_of_sameText Function.injective_id hold hnew ⟨1⟩ with ⟨-, hnoop⟩ | ⟨hother, -⟩
  · have hperm := hexact.noop.1 ⟨_, hnoop⟩
    have hkeys := (hperm.map ExternalItem.sourceKey).mem_iff (a := "c")
    exact absurd (hkeys.1 (by decide)) (by decide)
  · exact hother hsame

end Verdant.Semantics
