import Verdant.Library.Percent
import Verdant.Library.Result
import Verdant.Storage.Response

/-!
# Descriptors

The text an owner of outbox rows stores in them: fields `key=value` between semicolons, the values percent-encoded.
Access and binding read the same framing with their own words in the refusals.
-/

namespace Verdant.Storage

open TextCodec

/-- The words of an owner's refusals. -/
structure DescriptorWords where
  owner : String
  badEscape : String
  badField : String

/-- Decoded fields, in key order. -/
abbrev Fields := List (String × String)

def descriptorPart (field : String × String) : String := field.1 ++ "=" ++ field.2

/-- The text of fields whose values are already encoded. -/
def descriptor (fields : Fields) : String := joinText ';' (fields.map descriptorPart)

theorem size_descriptor_le (fields : Fields) : (descriptor fields).utf8ByteSize ≤
    (fields.map fun f => f.1.utf8ByteSize + f.2.utf8ByteSize + 2).sum := by
  have hjoin := utf8ByteSize_joinText_le ';' (fields.map descriptorPart)
  have hsep : (';' : Char).utf8Size = 1 := by decide
  have hequals : ("=" : String).utf8ByteSize = 1 := by decide
  unfold descriptor
  refine Nat.le_trans hjoin (Nat.le_of_eq ?_)
  rw [List.map_map]
  congr 1
  refine List.map_congr_left fun f _ => ?_
  simp only [Function.comp_apply, descriptorPart, String.utf8ByteSize_append, hequals, hsep]
  omega

/-- Inserts in key order; `none` when the key is present. -/
def putField (key value : String) : Fields → Option Fields
  | [] => some [(key, value)]
  | (k, v) :: rest =>
    if key = k then none
    else if key < k then some ((key, value) :: (k, v) :: rest)
    else (putField key value rest).map ((k, v) :: ·)

section Read

variable (words : DescriptorWords)

def pctRefusal (raw : String) : PctError → String
  | .truncated => s!"truncated percent escape in '{raw}'"
  | .notText => s!"invalid {words.badEscape} in '{raw}'"
  | .notHex digits => s!"invalid percent escape '%{digits}' in '{raw}'"
  | .notUtf8 => s!"{words.badField} is not valid UTF-8 in '{raw}'"

def addPart (map : Fields) (part : String) : Except String Fields :=
  match splitOnce '=' part with
  | none => .error s!"{words.owner} descriptor part without '=': '{part}'"
  | some (key, encoded) =>
    if key = "" then .error s!"{words.owner} descriptor has an empty key"
    else do
      let value ← (pctDecode encoded).mapError (pctRefusal words encoded)
      match putField key value map with
      | none => .error s!"{words.owner} descriptor duplicates key '{key}'"
      | some map => .ok map

def addParts (map : Fields) : List String → Except String Fields
  | [] => .ok map
  | part :: rest => do
    let map ← addPart words map part
    addParts map rest

def splitDescriptor (raw : String) : Except String Fields := addParts words [] (splitText ';' raw)

def requireField (map : Fields) (key : String) : Except String String :=
  match map.lookup key with
  | some value => .ok value
  | none => .error s!"{words.owner} descriptor missing field '{key}'"

def rejectUnknownFields (map : Fields) (allowed : List String) : Except String Unit :=
  match map.find? fun f => !allowed.contains f.1 with
  | some (key, _) => .error s!"{words.owner} descriptor has unexpected field '{key}'"
  | none => .ok ()

end Read

/-! ### Round trip -/

theorem lookup_putField {key value : String} {map out : Fields} (h : putField key value map = some out) (k : String) :
    out.lookup k = if k = key then some value else map.lookup k := by
  induction map generalizing out with
  | nil =>
    cases h
    by_cases hk : k = key
    · simp [List.lookup, hk]
    · have hbeq : (k == key) = false := by simpa using hk
      simp [List.lookup, hk, hbeq]
  | cons f rest ih =>
    obtain ⟨k', v'⟩ := f
    unfold putField at h
    split at h
    · exact nomatch h
    rename_i hne
    split at h
    · cases h
      by_cases hk : k = key
      · simp [List.lookup, hk]
      · have hbeq : (k == key) = false := by simpa using hk
        simp only [List.lookup, hbeq, if_neg hk]
    · obtain ⟨more, hmore, rfl⟩ := Option.map_eq_some_iff.1 h
      by_cases hk' : k = k'
      · subst hk'
        simp [List.lookup, Ne.symm hne]
      · have hbeq : (k == k') = false := by simpa using hk'
        simp only [List.lookup, hbeq]
        exact ih hmore

theorem keys_putField {key value : String} {map out : Fields} (h : putField key value map = some out) (k : String) :
    k ∈ out.map Prod.fst ↔ k = key ∨ k ∈ map.map Prod.fst := by
  induction map generalizing out with
  | nil =>
    cases h
    simp
  | cons f rest ih =>
    obtain ⟨k', v'⟩ := f
    unfold putField at h
    split at h
    · exact nomatch h
    split at h
    · cases h
      simp
    · obtain ⟨more, hmore, rfl⟩ := Option.map_eq_some_iff.1 h
      simp only [List.map_cons, List.mem_cons, ih hmore]
      exact or_left_comm

theorem putField_isSome {key value : String} {map : Fields} (h : key ∉ map.map Prod.fst) :
    ∃ out, putField key value map = some out := by
  induction map with
  | nil => exact ⟨_, rfl⟩
  | cons f rest ih =>
    obtain ⟨k', v'⟩ := f
    simp only [List.map_cons, List.mem_cons, not_or] at h
    unfold putField
    rw [if_neg h.1]
    by_cases hlt : key < k'
    · rw [if_pos hlt]
      exact ⟨_, rfl⟩
    · rw [if_neg hlt]
      obtain ⟨out, hout⟩ := ih h.2
      rw [hout]
      exact ⟨_, rfl⟩

/-- A key that a descriptor can carry. -/
def IsKey (key : String) : Prop := key ≠ "" ∧ ';' ∉ key.toList ∧ '=' ∉ key.toList

instance (key : String) : Decidable (IsKey key) := by
  unfold IsKey
  infer_instance

theorem addParts_encoded (words : DescriptorWords) {encode : String × String → String} {fields map : Fields}
    (hencode : ∀ f ∈ fields, pctDecode (encode f) = .ok f.2) (hkeys : ∀ f ∈ fields, IsKey f.1)
    (hnodup : (fields.map Prod.fst).Nodup) (hfresh : ∀ f ∈ fields, f.1 ∉ map.map Prod.fst) :
    ∃ out, addParts words map ((fields.map fun f => (f.1, encode f)).map descriptorPart) = .ok out ∧
      (∀ k, out.lookup k = (fields.lookup k).or (map.lookup k)) ∧
      ∀ k, k ∈ out.map Prod.fst ↔ k ∈ fields.map Prod.fst ∨ k ∈ map.map Prod.fst := by
  induction fields generalizing map with
  | nil => exact ⟨map, rfl, fun k => by simp, fun k => by simp⟩
  | cons f rest ih =>
    obtain ⟨key, value⟩ := f
    obtain ⟨hkey, -, heq⟩ := hkeys _ List.mem_cons_self
    rw [List.map_cons, List.nodup_cons] at hnodup
    obtain ⟨mid, hmid⟩ := @putField_isSome key value _ (hfresh _ List.mem_cons_self)
    have hvalue := hencode _ List.mem_cons_self
    have hpart : addPart words map (descriptorPart (key, encode (key, value))) = .ok mid := by
      unfold addPart descriptorPart
      have hsplit : splitOnce '=' (key ++ "=" ++ encode (key, value)) = some (key, encode (key, value)) :=
        splitOnce_append heq
      rw [hsplit]
      simp only [if_neg hkey, hvalue]
      simp only [Except.mapError, bind, Except.bind, hmid]
    have hfresh' : ∀ g ∈ rest, g.1 ∉ mid.map Prod.fst := by
      intro g hg hin
      rcases (keys_putField hmid g.1).1 hin with heq' | hold
      · exact hnodup.1 (List.mem_map.2 ⟨g, hg, heq'⟩)
      · exact hfresh g (List.mem_cons_of_mem _ hg) hold
    obtain ⟨out, hout, hlookup, hmem⟩ := ih (fun g hg => hencode g (List.mem_cons_of_mem _ hg))
      (fun g hg => hkeys g (List.mem_cons_of_mem _ hg)) hnodup.2 hfresh'
    refine ⟨out, ?_, fun k => ?_, fun k => ?_⟩
    · simp only [List.map_cons, addParts, hpart]
      exact hout
    · rw [hlookup, lookup_putField hmid]
      by_cases hk : k = key
      · subst hk
        have hnone : rest.lookup k = none := by
          rw [List.lookup_eq_none_iff]
          intro g hg
          have hne : g.1 ≠ k := fun heq' => hnodup.1 (List.mem_map.2 ⟨g, hg, heq'⟩)
          simpa using Ne.symm hne
        simp [List.lookup, hnone]
      · have hbeq : (k == key) = false := by simpa using hk
        simp [List.lookup, hbeq, hk]
    · rw [hmem, keys_putField hmid]
      simp only [List.map_cons, List.mem_cons]
      tauto

/-- The fields of a descriptor read back, however their values were encoded. -/
theorem splitDescriptor_encoded (words : DescriptorWords) {encode : String × String → String} {fields : Fields}
    (hencode : ∀ f ∈ fields, ';' ∉ (encode f).toList ∧ pctDecode (encode f) = .ok f.2) (hne : fields ≠ [])
    (hkeys : ∀ f ∈ fields, IsKey f.1) (hnodup : (fields.map Prod.fst).Nodup) :
    ∃ map, splitDescriptor words (descriptor (fields.map fun f => (f.1, encode f))) = .ok map ∧
      (∀ k, map.lookup k = fields.lookup k) ∧ ∀ k, k ∈ map.map Prod.fst ↔ k ∈ fields.map Prod.fst := by
  have hsplit : splitText ';' (descriptor (fields.map fun f => (f.1, encode f))) =
      (fields.map fun f => (f.1, encode f)).map descriptorPart := by
    refine splitText_joinText ?_ (by simpa using hne)
    intro part hpart
    obtain ⟨g, hg, rfl⟩ := List.mem_map.1 hpart
    obtain ⟨f, hf, rfl⟩ := List.mem_map.1 hg
    have hsemi := (hencode f hf).1
    have hkey := (hkeys f hf).2.1
    simp only [descriptorPart, String.toList_append, List.mem_append, not_or]
    exact ⟨⟨hkey, by decide⟩, hsemi⟩
  obtain ⟨map, hmap, hlookup, hmem⟩ := @addParts_encoded words encode fields [] (fun f hf => (hencode f hf).2) hkeys hnodup
    (by simp)
  refine ⟨map, ?_, fun k => ?_, fun k => ?_⟩
  · unfold splitDescriptor
    rw [hsplit]
    exact hmap
  · rw [hlookup]
    simp
  · rw [hmem]
    simp

/-- The fields of a descriptor read back, whatever texts their values are. -/
theorem splitDescriptor_descriptor (words : DescriptorWords) {fields : Fields} (hne : fields ≠ [])
    (hkeys : ∀ f ∈ fields, IsKey f.1) (hnodup : (fields.map Prod.fst).Nodup) :
    ∃ map, splitDescriptor words (descriptor (fields.map fun f => (f.1, pctEncode f.2))) = .ok map ∧
      (∀ k, map.lookup k = fields.lookup k) ∧ ∀ k, k ∈ map.map Prod.fst ↔ k ∈ fields.map Prod.fst :=
  splitDescriptor_encoded words (fun f _ => ⟨semicolon_not_mem_pctEncode f.2, pctDecode_pctEncode f.2⟩) hne hkeys hnodup

/-- Keys in order, each once. -/
def Sorted (map : Fields) : Prop := map.Pairwise fun a b => a.1 < b.1

theorem Sorted.putField {key value : String} {map out : Fields} (h : Sorted map)
    (hput : putField key value map = some out) : Sorted out := by
  induction map generalizing out with
  | nil =>
    cases hput
    exact List.pairwise_singleton _ _
  | cons f rest ih =>
    obtain ⟨k', v'⟩ := f
    obtain ⟨hhead, htail⟩ := List.pairwise_cons.1 h
    unfold Storage.putField at hput
    split at hput
    · exact nomatch hput
    rename_i hne
    split at hput
    · rename_i hlt
      cases hput
      refine List.pairwise_cons.2 ⟨fun g hg => ?_, h⟩
      rcases List.mem_cons.1 hg with rfl | hg
      · exact hlt
      · exact String.lt_trans hlt (hhead g hg)
    · rename_i hnlt
      obtain ⟨more, hmore, rfl⟩ := Option.map_eq_some_iff.1 hput
      refine List.pairwise_cons.2 ⟨fun g hg => ?_, ih htail hmore⟩
      rcases (keys_putField hmore g.1).1 (List.mem_map_of_mem hg) with hkey | hold
      · have hlt : k' < key := by
          by_contra hnot
          exact hne (String.le_antisymm (String.not_lt.1 hnot) (String.not_lt.1 hnlt))
        rw [hkey]
        exact hlt
      · obtain ⟨f, hf, hfst⟩ := List.mem_map.1 hold
        rw [← hfst]
        exact hhead f hf

/-- A key that is present is not inserted again. -/
theorem Sorted.putField_eq_none {key value : String} {map : Fields} (h : Sorted map) (hkey : key ∈ map.map Prod.fst) :
    Storage.putField key value map = none := by
  induction map with
  | nil => exact nomatch hkey
  | cons f rest ih =>
    obtain ⟨k', v'⟩ := f
    obtain ⟨hhead, htail⟩ := List.pairwise_cons.1 h
    unfold Storage.putField
    by_cases heq : key = k'
    · rw [if_pos heq]
    · have hrest : key ∈ rest.map Prod.fst := (List.mem_cons.1 hkey).resolve_left heq
      obtain ⟨f, hf, hfst⟩ := List.mem_map.1 hrest
      have hlt : k' < key := hfst ▸ hhead f hf
      have hnlt : ¬ key < k' := fun hback => String.lt_irrefl _ (String.lt_trans hlt hback)
      rw [if_neg heq, if_neg hnlt, ih htail hrest]
      rfl

/-- Fields are only added: what a part says is read from the map in the end, whatever the other parts are. -/
theorem lookup_of_addParts {words : DescriptorWords} {parts : List String} {map out : Fields} (hmap : Sorted map)
    (h : addParts words map parts = .ok out) :
    (∀ k v, map.lookup k = some v → out.lookup k = some v) ∧
      ∀ k enc v, '=' ∉ k.toList → descriptorPart (k, enc) ∈ parts → pctDecode enc = .ok v → out.lookup k = some v := by
  induction parts generalizing map with
  | nil =>
    cases h
    exact ⟨fun _ _ hk => hk, fun _ _ _ _ hmem => nomatch hmem⟩
  | cons part rest ih =>
    obtain ⟨mid, hmid, hrest⟩ := Result.bind_eq_ok.1 h
    have hpart : ∃ key enc value, splitOnce '=' part = some (key, enc) ∧ pctDecode enc = .ok value ∧
        putField key value map = some mid := by
      unfold addPart at hmid
      split at hmid
      · exact nomatch hmid
      rename_i key enc hsplit
      split at hmid
      · exact nomatch hmid
      obtain ⟨value, hvalue, hput⟩ := Result.bind_eq_ok.1 hmid
      split at hput
      · exact nomatch hput
      · rename_i map' hmap'
        cases hput
        exact ⟨key, enc, value, hsplit, Result.mapError_eq_ok.1 hvalue, hmap'⟩
    obtain ⟨key, enc, value, hsplit, hvalue, hput⟩ := hpart
    obtain ⟨hold, hnew⟩ := ih (hmap.putField hput) hrest
    refine ⟨fun k v hk => hold k v ?_, fun k enc' v hk hmem hdecode => ?_⟩
    · rw [lookup_putField hput]
      by_cases hkey : k = key
      · -- a part never names a key that is already there
        subst hkey
        have hin : k ∈ map.map Prod.fst := by
          by_contra hnot
          have hnone : map.lookup k = none := by
            rw [List.lookup_eq_none_iff]
            intro g hg
            have hne : g.1 ≠ k := fun heq => hnot (List.mem_map.2 ⟨g, hg, heq⟩)
            simpa using Ne.symm hne
          rw [hnone] at hk
          exact nomatch hk
        rw [hmap.putField_eq_none hin] at hput
        exact nomatch hput
      · rw [if_neg hkey]
        exact hk
    · rcases List.mem_cons.1 hmem with rfl | hmem
      · have hself : splitOnce '=' (descriptorPart (k, enc')) = some (k, enc') := splitOnce_append hk
        rw [hself] at hsplit
        obtain ⟨rfl, rfl⟩ := Prod.mk.inj (Option.some.inj hsplit)
        rw [hdecode] at hvalue
        obtain rfl := Except.ok.inj hvalue
        refine hold k v ?_
        rw [lookup_putField hput, if_pos rfl]
      · exact hnew k enc' v hk hmem hdecode

/-- The value of every part of a descriptor that reads decodes. -/
theorem decodes_of_addParts {words : DescriptorWords} {parts : List String} {map out : Fields}
    (h : addParts words map parts = .ok out) {k enc : String} (hpart : descriptorPart (k, enc) ∈ parts)
    (hkey : '=' ∉ k.toList) : ∃ v, pctDecode enc = .ok v := by
  induction parts generalizing map with
  | nil => exact nomatch hpart
  | cons part rest ih =>
    obtain ⟨mid, hmid, hrest⟩ := Result.bind_eq_ok.1 h
    rcases List.mem_cons.1 hpart with rfl | hpart
    · have hself : splitOnce '=' (descriptorPart (k, enc)) = some (k, enc) := splitOnce_append hkey
      unfold addPart at hmid
      rw [hself] at hmid
      simp only at hmid
      split at hmid
      · exact nomatch hmid
      obtain ⟨value, hvalue, -⟩ := Result.bind_eq_ok.1 hmid
      exact ⟨value, Result.mapError_eq_ok.1 hvalue⟩
    · exact ih hrest hpart

/-- A field of a descriptor that reads, among fields of any text. -/
theorem lookup_of_splitDescriptor {words : DescriptorWords} {fields map : Fields} {k enc v : String}
    (h : splitDescriptor words (descriptor fields) = .ok map) (hmem : (k, enc) ∈ fields) (hkey : IsKey k)
    (henc : ';' ∉ enc.toList) (hdecode : pctDecode enc = .ok v) : map.lookup k = some v := by
  refine (lookup_of_addParts List.Pairwise.nil h).2 k enc v hkey.2.2 ?_ hdecode
  refine mem_splitText_joinText (List.mem_map_of_mem hmem) ?_
  simp only [descriptorPart, String.toList_append, List.mem_append, not_or]
  exact ⟨⟨hkey.2.1, by decide⟩, henc⟩

/-- The value of a field as the reader cuts it: up to its first semicolon. -/
def cutValue (enc : String) : String := String.ofList (enc.toList.takeWhile (· ≠ ';'))

theorem cutValue_of_not_mem {enc : String} (h : ';' ∉ enc.toList) : cutValue enc = enc := by
  have hall : ∀ c ∈ enc.toList, decide (c ≠ ';') = true := by
    intro c hc
    rw [decide_eq_true_eq]
    rintro rfl
    exact h hc
  unfold cutValue
  rw [List.takeWhile_eq_self_iff.2 hall, String.ofList_toList]

theorem size_cutValue (enc : String) :
    (cutValue enc).utf8ByteSize ≤ enc.utf8ByteSize ∧
      (';' ∈ enc.toList → (cutValue enc).utf8ByteSize < enc.utf8ByteSize) := by
  have hsplit := List.takeWhile_append_dropWhile (p := fun c => decide (c ≠ ';')) (l := enc.toList)
  have hsum : (cutValue enc).utf8ByteSize + ((enc.toList.dropWhile (· ≠ ';')).map Char.utf8Size).sum =
      enc.utf8ByteSize := by
    unfold cutValue
    rw [utf8ByteSize_ofList, utf8ByteSize_eq enc, ← List.sum_append, ← List.map_append, hsplit]
  refine ⟨by omega, fun hmem => ?_⟩
  cases hrest : enc.toList.dropWhile (· ≠ ';') with
  | nil =>
    have hall := List.dropWhile_eq_nil_iff.1 hrest ';' hmem
    exact absurd hall (by decide)
  | cons c cs =>
    have hpos := c.utf8Size_pos
    rw [hrest, List.map_cons, List.sum_cons] at hsum
    omega

/-- A field of a descriptor that reads, among fields of any text, is read up to its first semicolon. -/
theorem lookup_cutValue {words : DescriptorWords} {fields map : Fields} {k enc : String}
    (h : splitDescriptor words (descriptor fields) = .ok map) (hmem : (k, enc) ∈ fields) (hkey : IsKey k) :
    ∃ v, pctDecode (cutValue enc) = .ok v ∧ map.lookup k = some v := by
  have hpart : descriptorPart (k, cutValue enc) ∈ splitText ';' (descriptor fields) := by
    unfold descriptor
    rw [splitText_joinText_flatMap (by simpa using List.ne_nil_of_mem hmem)]
    refine List.mem_flatMap_of_mem (List.mem_map_of_mem hmem) ?_
    have hfront : ';' ∉ (descriptorPart (k, cutValue enc)).toList := by
      have hcut : ';' ∉ (cutValue enc).toList := by
        unfold cutValue
        rw [String.toList_ofList]
        intro hin
        exact absurd (List.mem_takeWhile_imp hin) (by decide)
      simp only [descriptorPart, String.toList_append, List.mem_append, not_or]
      exact ⟨⟨hkey.2.1, by decide⟩, hcut⟩
    by_cases hsemi : ';' ∈ enc.toList
    · obtain ⟨rest, hrest⟩ : ∃ rest, enc.toList = (cutValue enc).toList ++ ';' :: rest := by
        obtain ⟨front, rest, hchars, hfree⟩ := List.eq_append_cons_of_mem hsemi
        refine ⟨rest, ?_⟩
        have hall : ∀ c ∈ front, decide (c ≠ ';') = true := by
          intro c hc
          rw [decide_eq_true_eq]
          rintro rfl
          exact hfree hc
        unfold cutValue
        rw [String.toList_ofList, hchars, List.takeWhile_append_of_pos hall, List.takeWhile_cons_of_neg (by decide),
          List.append_nil]
      have hchars : (descriptorPart (k, enc)).toList = (descriptorPart (k, cutValue enc)).toList ++ ';' :: rest := by
        simp only [descriptorPart, String.toList_append, hrest, List.append_assoc]
      unfold splitText
      rw [hchars, List.splitOn_append_cons_self, List.splitOn_eq_singleton hfront, List.singleton_append, List.map_cons,
        String.ofList_toList]
      exact List.mem_cons_self
    · rw [cutValue_of_not_mem hsemi] at hfront ⊢
      rw [splitText_of_not_mem hfront]
      exact List.mem_singleton_self _
  have hread : ∃ v, pctDecode (cutValue enc) = .ok v := decodes_of_addParts h hpart hkey.2.2
  obtain ⟨v, hv⟩ := hread
  exact ⟨v, hv, (lookup_of_addParts List.Pairwise.nil h).2 k (cutValue enc) v hkey.2.2 hpart hv⟩

theorem requireField_of_lookup {words : DescriptorWords} {map : Fields} {key value : String}
    (h : map.lookup key = some value) : requireField words map key = .ok value := by
  unfold requireField
  rw [h]

theorem rejectUnknownFields_of_subset {words : DescriptorWords} {map : Fields} {allowed : List String}
    (h : ∀ k ∈ map.map Prod.fst, k ∈ allowed) : rejectUnknownFields words map allowed = .ok () := by
  unfold rejectUnknownFields
  have hnone : (map.find? fun f => !allowed.contains f.1) = none := by
    rw [List.find?_eq_none]
    intro f hf
    have hin := h f.1 (List.mem_map_of_mem hf)
    simpa using hin
  rw [hnone]

end Verdant.Storage
