import Verdant.Library.Sorting
import Verdant.Semantics.Profile

/-!
# Offline vocabulary conversion

A site of external candidates is converted, as a whole or not at all, into bindings of the Verdant namespace with a record
of its digests, and applied to a bound state whose revision is bumped unless profile, input and content digest are the
current ones.  The digest is a parameter; the source's is `fnv1aHex`.
-/

namespace Verdant.Semantics

open TextCodec

def maxSourceKeyLen : Nat := 128
def maxClassLen : Nat := 128
def maxLabelLen : Nat := 128

/-! ### Errors -/

/-- Typed semantics failure. -/
inductive SemanticsError where
  | invalidInput (what detail : String)
  | unknownClass (externalClass profile : String)
  | outOfScenario (externalClass reason profile : String)
  | slotMismatch (externalClass kind slot profile : String)
  | collision (slot : String) (candidates : List String) (profile : String)
  | revisionOverflow (current : UInt32) (profile : String)
  deriving DecidableEq

/-- A JSON array of rendered items. -/
def jsonList (items : List String) : String := "[" ++ joinText ',' items ++ "]"

/-- A JSON object of rendered fields, in the order given. -/
def jsonObject (fields : List (String × String)) : String :=
  "\x7b" ++ joinText ',' (fields.map fun f => Json.quote f.1 ++ ":" ++ f.2) ++ "\x7d"

/-- Deterministic JSON rendering: field order frozen, candidates sorted. -/
def SemanticsError.toJson : SemanticsError → String
  | .invalidInput what detail =>
    jsonObject [("code", Json.quote "invalid-input"), ("detail", Json.quote detail), ("what", Json.quote what)]
  | .unknownClass externalClass profile =>
    jsonObject [("code", Json.quote "unknown-class"), ("class", Json.quote externalClass), ("profile", Json.quote profile)]
  | .outOfScenario externalClass reason profile =>
    jsonObject [("code", Json.quote "out-of-scenario"), ("class", Json.quote externalClass),
      ("profile", Json.quote profile), ("reason", Json.quote reason)]
  | .slotMismatch externalClass kind slot profile =>
    jsonObject [("code", Json.quote "slot-mismatch"), ("class", Json.quote externalClass), ("kind", Json.quote kind),
      ("profile", Json.quote profile), ("slot", Json.quote slot)]
  | .collision slot candidates profile =>
    jsonObject [("code", Json.quote "collision"), ("candidates", jsonList ((sortBy id candidates).map Json.quote)),
      ("profile", Json.quote profile), ("slot", Json.quote slot)]
  | .revisionOverflow current profile =>
    jsonObject [("code", Json.quote "revision-overflow"), ("current", Json.quote (Nat.repr current.toNat)),
      ("profile", Json.quote profile)]

/-! ### Candidates -/

def validateToken (kind raw : String) (max : Nat) : Except SemanticsError Unit :=
  if raw = "" then .error (.invalidInput kind "value must not be empty")
  else if max < raw.utf8ByteSize then
    .error (.invalidInput kind s!"value is {raw.utf8ByteSize} chars; maximum is {max}")
  else if raw.toList.all idChar then .ok ()
  else .error (.invalidInput kind s!"value has unsupported characters: '{raw}'")

def validateLabel (raw : String) : Except SemanticsError Unit :=
  if raw = "" then .error (.invalidInput "label" "label must not be empty")
  else if maxLabelLen < raw.utf8ByteSize then
    .error (.invalidInput "label" s!"label is {raw.utf8ByteSize} chars; maximum is {maxLabelLen}")
  else if '\x00' ∈ raw.toList then .error (.invalidInput "label" "label must not contain NUL")
  else .ok ()

theorem validateToken_eq_ok {kind raw : String} : validateToken kind raw maxIdLen = .ok () ↔ IsId raw := by
  unfold validateToken IsId
  by_cases hempty : raw = ""
  · simp [hempty]
  by_cases hlong : maxIdLen < raw.utf8ByteSize
  · have hnot : ¬ raw.utf8ByteSize ≤ maxIdLen := by omega
    simp [hempty, hlong, hnot]
  · have hle : raw.utf8ByteSize ≤ maxIdLen := by omega
    rw [if_neg hempty, if_neg hlong]
    by_cases hchars : raw.toList.all idChar = true
    · rw [if_pos hchars]
      exact ⟨fun _ => ⟨hempty, hle, hchars⟩, fun _ => rfl⟩
    · rw [if_neg hchars]
      exact ⟨fun h => (nomatch h), fun h => absurd h.2.2 hchars⟩

/-- One external candidate with validated syntax; its integers are the source's `i128`. -/
structure ExternalItem where
  sourceKey : String
  externalClass : String
  verdantSlot : InstalledId
  label : String
  unit : MeasureUnit
  value : Value
  key_token : IsId sourceKey
  class_token : IsId externalClass
  label_valid : validateLabel label = .ok ()
  unit_parsed : unit.Parsed
  value_inRange : value.InRange

theorem ExternalItem.ext_fields {a b : ExternalItem} (hkey : a.sourceKey = b.sourceKey)
    (hclass : a.externalClass = b.externalClass) (hslot : a.verdantSlot = b.verdantSlot) (hlabel : a.label = b.label)
    (hunit : a.unit = b.unit) (hvalue : a.value = b.value) : a = b := by
  cases a
  cases b
  simp only at hkey hclass hslot hlabel hunit hvalue
  subst hkey hclass hslot hlabel hunit hvalue
  rfl

def slotError (raw : String) (e : DomainError) : SemanticsError :=
  .invalidInput "verdant-slot" s!"invalid installed id '{raw}': {e.display} [{e.code}]"

def unitError (raw : String) (e : DomainError) : SemanticsError :=
  .invalidInput "unit" s!"invalid unit '{raw}': {e.display} [{e.code}]"

/-- Validates caller text into a candidate. -/
def ExternalItem.parse (sourceKey externalClass verdantSlot label unitText : String) (value : Value)
    (inRange : value.InRange) : Except SemanticsError ExternalItem :=
  match hkey : validateToken "source-key" sourceKey maxSourceKeyLen with
  | .error e => .error e
  | .ok () =>
    match hclass : validateToken "external-class" externalClass maxClassLen with
    | .error e => .error e
    | .ok () =>
      match InstalledId.parse verdantSlot with
      | .error e => .error (slotError verdantSlot e)
      | .ok slot =>
        match hlabel : validateLabel label with
        | .error e => .error e
        | .ok () =>
          match hunit : MeasureUnit.parse unitText with
          | .error e => .error (unitError unitText e)
          | .ok unit =>
            .ok ⟨sourceKey, externalClass, slot, label, unit, value, validateToken_eq_ok.1 hkey,
              validateToken_eq_ok.1 hclass, hlabel, ⟨unitText, hunit⟩, inRange⟩

/-- The candidates are exactly what is parsed. -/
theorem ExternalItem.parse_self (item : ExternalItem) :
    ExternalItem.parse item.sourceKey item.externalClass item.verdantSlot.text item.label item.unit.asStr item.value
      item.value_inRange = .ok item := by
  have hkey : validateToken "source-key" item.sourceKey maxSourceKeyLen = .ok () := validateToken_eq_ok.2 item.key_token
  have hclass : validateToken "external-class" item.externalClass maxClassLen = .ok () :=
    validateToken_eq_ok.2 item.class_token
  have hslot : InstalledId.parse item.verdantSlot.text = .ok item.verdantSlot := parseId_of_isId item.verdantSlot.valid
  have hunit := MeasureUnit.parse_asStr item.unit_parsed
  unfold ExternalItem.parse
  split
  · rename_i e he
    exact absurd (hkey.symm.trans he) (by simp)
  split
  · rename_i e he
    exact absurd (hclass.symm.trans he) (by simp)
  rw [hslot]
  simp only
  split
  · rename_i e he
    exact absurd (item.label_valid.symm.trans he) (by simp)
  split
  · rename_i e he
    exact absurd (hunit.symm.trans he) (by simp)
  · rename_i unit he
    obtain rfl : item.unit = unit := Except.ok.inj (hunit.symm.trans he)
    rfl

/-! ### Sites -/

/-- The first of two equal neighbours. -/
def firstDuplicate : List String → Option String
  | a :: b :: keys => if a = b then some a else firstDuplicate (b :: keys)
  | _ => none

theorem nodup_of_firstDuplicate {keys : List String} (hsorted : keys.Pairwise (· ≤ ·))
    (h : firstDuplicate keys = none) : keys.Nodup := by
  have hstrict : keys.Pairwise (· < ·) := by
    induction keys with
    | nil => exact List.Pairwise.nil
    | cons a keys ih =>
      obtain ⟨hhead, htail⟩ := List.pairwise_cons.1 hsorted
      cases keys with
      | nil => exact List.pairwise_singleton _ _
      | cons b keys =>
        unfold firstDuplicate at h
        split at h
        · exact nomatch h
        rename_i hne
        have hrest := ih htail h
        refine List.pairwise_cons.2 ⟨fun c hc => ?_, hrest⟩
        have hab : a < b := lt_of_le_of_ne (hhead b List.mem_cons_self) hne
        rcases List.mem_cons.1 hc with rfl | hc
        · exact hab
        · exact lt_trans hab ((List.pairwise_cons.1 hrest).1 c hc)
  exact hstrict.imp fun hab => ne_of_lt hab

/-- Curated external site: candidates with distinct source keys. -/
structure ExternalSite where
  items : List ExternalItem
  nonempty : items ≠ []
  distinct : (items.map ExternalItem.sourceKey).Nodup

def ExternalSite.new (items : List ExternalItem) : Except SemanticsError ExternalSite :=
  if hempty : items = [] then .error (.invalidInput "site" "site must contain at least one candidate")
  else match hkeys : firstDuplicate (sortBy id (items.map ExternalItem.sourceKey)) with
    | some key => .error (.invalidInput "source-key" s!"duplicate source key '{key}'")
    | none => .ok ⟨items, hempty, (perm_sortBy id _).nodup_iff.1
        (nodup_of_firstDuplicate (pairwise_sortBy id _) hkeys)⟩

namespace ExternalItem

variable (item : ExternalItem)

def slot : String := item.verdantSlot.text

/-- The line of a candidate in the input of its site. -/
def inputLine : String :=
  joinText '\x1f' [item.sourceKey, item.externalClass, item.slot, item.label, item.unit.asStr, item.value.toJson]

/-- The trusted line of a slot, a unit and a value. -/
def contentLine : String := joinText '\x1f' [item.slot, item.unit.asStr, item.value.toJson]

end ExternalItem

namespace ExternalSite

variable (digest : String → String) (site : ExternalSite)

def sortedBySourceKey : List ExternalItem := sortBy ExternalItem.sourceKey site.items

def canonicalInputBytes : String := joinText '\n' (site.sortedBySourceKey.map ExternalItem.inputLine)

/-- Digest for no-op detection and the record. -/
def inputDigest : String := digest site.canonicalInputBytes

def canonicalContentBytes : String := joinText '\n' ((sortBy ExternalItem.slot site.items).map ExternalItem.contentLine)

/-- Digest over trusted content only; labels, source keys and classes never enter it. -/
def contentDigest : String := digest site.canonicalContentBytes

end ExternalSite

/-! ### Conversions -/

/-- One Verdant binding. -/
structure Binding where
  verdantId : InstalledId
  kind : VerdantKind
  sourceKey : String
  externalClass : String
  label : String
  unit : MeasureUnit
  value : Value
  deriving DecidableEq

def Binding.toJson (binding : Binding) : String :=
  jsonObject [("external_class", Json.quote binding.externalClass), ("kind", Json.quote binding.kind.asStr),
    ("label", Json.quote binding.label), ("source_key", Json.quote binding.sourceKey),
    ("unit", Json.quote binding.unit.asStr), ("value", binding.value.toJson),
    ("verdant_id", Json.quote binding.verdantId.text), ("verdant_namespace", Json.quote verdantNamespace)]

/-- Outcome of one candidate in the record. -/
structure ItemOutcome where
  sourceKey : String
  externalClass : String
  verdantSlot : String
  kind : VerdantKind
  outcome : String
  deriving DecidableEq

def ItemOutcome.toJson (item : ItemOutcome) : String :=
  jsonObject [("external_class", Json.quote item.externalClass), ("outcome", Json.quote item.outcome),
    ("source_key", Json.quote item.sourceKey), ("verdant_kind", Json.quote item.kind.asStr),
    ("verdant_slot", Json.quote item.verdantSlot)]

/-- Conversion record and manifest. -/
structure ConversionRecord where
  profileId : String
  inputDigest : String
  contentDigest : String
  items : List ItemOutcome
  deriving DecidableEq

def ConversionRecord.toJson (record : ConversionRecord) : String :=
  jsonObject [("content_digest", Json.quote record.contentDigest), ("input_digest", Json.quote record.inputDigest),
    ("items", jsonList (record.items.map ItemOutcome.toJson)), ("profile", Json.quote record.profileId)]

/-- Record and bindings, both sorted by slot. -/
structure Conversion where
  record : ConversionRecord
  bindings : List Binding
  deriving DecidableEq

def Conversion.toJson (conversion : Conversion) : String :=
  jsonObject [("bindings", jsonList (conversion.bindings.map Binding.toJson)), ("record", conversion.record.toJson)]

/-- The JSON of a conversion or of its failure. -/
def renderConversion : Except SemanticsError Conversion → String
  | .ok conversion => conversion.toJson
  | .error e => e.toJson

/-- The checks of one candidate, in their order. -/
def checkItem (profile : Profile) (item : ExternalItem) : Except SemanticsError VerdantKind :=
  match profile.classify item.externalClass with
  | .supported kind =>
    if ¬ kind.slotPrefix.toList <+: item.slot.toList then
      .error (.slotMismatch item.externalClass kind.asStr item.slot profile.id)
    else match profile.unsupportedToken item.unit item.value with
      | some (what, token) => .error (.invalidInput what
          s!"unsupported {what} '{token}' for profile '{profile.id}' (exact closed vocabulary)")
      | none => .ok kind
  | .outOfScenario reason => .error (.outOfScenario item.externalClass reason profile.id)
  | .unknown => .error (.unknownClass item.externalClass profile.id)

/-- The first failure in the order of the list wins. -/
def classifyItems (profile : Profile) : List ExternalItem → Except SemanticsError (List (ExternalItem × VerdantKind))
  | [] => .ok []
  | item :: items => do
    let kind ← checkItem profile item
    let classified ← classifyItems profile items
    .ok ((item, kind) :: classified)

/-- The candidates of each slot, slots in order. -/
def bySlot (items : List ExternalItem) : List (String × List ExternalItem) :=
  (sortBy id (items.map ExternalItem.slot).dedup).map fun slot => (slot, items.filter fun item => item.slot = slot)

/-- The first contested slot. -/
def checkCollisions (profile : Profile) (items : List ExternalItem) : Except SemanticsError Unit :=
  match (bySlot items).find? fun group => 1 < group.2.length with
  | some (slot, claimants) => .error (.collision slot (sortBy id (claimants.map ExternalItem.sourceKey)) profile.id)
  | none => .ok ()

def bindingOf (classified : ExternalItem × VerdantKind) : Binding where
  verdantId := classified.1.verdantSlot
  kind := classified.2
  sourceKey := classified.1.sourceKey
  externalClass := classified.1.externalClass
  label := classified.1.label
  unit := classified.1.unit
  value := classified.1.value

def outcomeOf (classified : ExternalItem × VerdantKind) : ItemOutcome where
  sourceKey := classified.1.sourceKey
  externalClass := classified.1.externalClass
  verdantSlot := classified.1.slot
  kind := classified.2
  outcome := "mapped"

def Binding.contentLine (binding : Binding) : String :=
  joinText '\x1f' [binding.verdantId.text, binding.unit.asStr, binding.value.toJson]

section Convert

variable (digest : String → String)

/-- Converts the supported subset; classification, slot and vocabulary of each candidate before collisions. -/
def convert (site : ExternalSite) (profile : Profile) : Except SemanticsError Conversion := do
  let classified ← classifyItems profile (sortBy ExternalItem.sourceKey site.items)
  checkCollisions profile (classified.map Prod.fst)
  let bindings := sortBy (fun binding => binding.verdantId.text) (classified.map bindingOf)
  let outcomes := sortBy ItemOutcome.verdantSlot (classified.map outcomeOf)
  let contentLines := sortBy id (bindings.map Binding.contentLine)
  .ok ⟨⟨profile.id, site.inputDigest digest, digest (joinText '\n' contentLines), outcomes⟩, bindings⟩

end Convert

/-! ### Bound state -/

/-- Bound state with its revision. -/
structure BindingSet where
  revision : BindingRevision
  profileId : String
  inputDigest : String
  contentDigest : String
  bindings : List Binding

def BindingSet.fromConversion (conversion : Conversion) (revision : BindingRevision) : BindingSet where
  revision := revision
  profileId := conversion.record.profileId
  inputDigest := conversion.record.inputDigest
  contentDigest := conversion.record.contentDigest
  bindings := conversion.bindings

inductive ApplyOutcome where
  | noop (record : ConversionRecord)
  | applied (record : ConversionRecord) (next : BindingSet)

/-- Applies a site to bound state. -/
def apply (digest : String → String) (site : ExternalSite) (profile : Profile) (current : BindingSet) :
    Except SemanticsError ApplyOutcome := do
  let conversion ← convert digest site profile
  let record := conversion.record
  if record.profileId = current.profileId ∧ record.inputDigest = current.inputDigest ∧
      record.contentDigest = current.contentDigest then
    .ok (.noop record)
  else match checkedSucc current.revision.value with
    | none => .error (.revisionOverflow current.revision.value profile.id)
    | some bumped =>
      .ok (.applied record ⟨⟨bumped⟩, record.profileId, record.inputDigest, record.contentDigest, conversion.bindings⟩)

end Verdant.Semantics
