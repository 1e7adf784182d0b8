import Rupi.Core.Texts
import Rupi.Store.Trace

/-!
What bounding a line does to it, and what putting a string back does.

- `Payload.replace_of_textAt`: replacing the string at a path rewrites that string.
- `Payload.Plain`: a path whose segments are not empty and hold no separator; joining
  and splitting keeps exactly these (`pathSegments_joinPath`).
- `textAt_replaceStringField`: no string on another kind of path is ever put back.
- `Payload.spillsOf`: the strings that the loop of `bound` takes out.
- **`Payload.bound_eq`**: the line that `bound` leaves, in terms of these.
-/

namespace Rupi

open Value

namespace Payload

/-! ### Looking up and replacing -/

/-- The segment of an index: decimal digits, no separator. -/
lemma isDigit_of_mem_repr {index : Nat} {c : Char} (h : c ∈ index.repr.toList) : c.isDigit := by
  rw [Nat.toList_repr] at h
  exact Nat.isDigit_of_mem_toDigits (by decide) (by decide) h

lemma repr_ne_empty (index : Nat) : index.repr.toList ≠ [] := by
  rw [Nat.toList_repr]
  exact Nat.toDigits_ne_nil

/-- An index is read back from its segment. -/
lemma parseIndex_repr (index : Nat) : parseIndex index.repr = some index := by
  have hdigits : dropSign index.repr.toList = Nat.toDigits 10 index := by
    unfold dropSign
    split
    · rename_i digits heq
      have hplus : '+' ∈ index.repr.toList := by rw [heq]; exact List.mem_cons_self
      exact absurd (isDigit_of_mem_repr hplus) (by decide)
    · exact Nat.toList_repr
  have hall : (Nat.toDigits 10 index).all Char.isDigit = true :=
    List.all_eq_true.mpr fun c hc => Nat.isDigit_of_mem_toDigits (by decide) (by decide) hc
  have hempty : (Nat.toDigits 10 index).isEmpty = false :=
    List.isEmpty_eq_false_iff.mpr Nat.toDigits_ne_nil
  rw [parseIndex, hdigits]
  simp only [hall, hempty, Bool.not_false, Bool.and_self, if_true,
    Nat.ofDigitChars_ten_toDigits]

lemma lookup_of_textAt {line : Value} {path : List String} {text : String}
    (h : TextAt line path text) : lookup path line = some (string text) := by
  induction h with
  | here text => rfl
  | field hget _ ih => rw [lookup, hget, Option.bind_some, ih]
  | item hget _ ih => rw [lookup, parseIndex_repr, Option.bind_some, hget, Option.bind_some, ih]

/-- Replace the string that a value is, or one below it. -/
def replaceLeaf (text : String) (path : List String) (value : Value) : Option Value :=
  match path, value with
  | [], .string _ => some (.string text)
  | [], _ => none
  | _ :: _, value => replace text path value

lemma replace_object (text segment : String) (rest : List String)
    (fields : List (String × Value)) :
    replace text (segment :: rest) (.object fields) =
      (updateField segment (replaceLeaf text rest) fields).map .object := by
  rw [replace]
  congr 2

lemma replace_array (text segment : String) (rest : List String) (items : List Value) :
    replace text (segment :: rest) (.array items) =
      (parseIndex segment).bind fun index =>
        (updateItem index (replaceLeaf text rest) items).map .array := by
  rw [replace]
  congr 1

lemma updateItem_eq_some {index : Nat} {f : Value → Option Value} {items items' : List Value}
    (h : updateItem index f items = some items') :
    (∃ value value', items[index]? = some value ∧ f value = some value' ∧
        items'[index]? = some value') ∧
      ∀ other, other ≠ index → items'[other]? = items[other]? := by
  induction items generalizing index items' with
  | nil => simp [updateItem] at h
  | cons value items ih =>
    cases index with
    | zero =>
      obtain ⟨value', hvalue, rfl⟩ := Option.map_eq_some_iff.mp h
      refine ⟨⟨value, value', rfl, hvalue, rfl⟩, fun other hother => ?_⟩
      cases other with
      | zero => exact absurd rfl hother
      | succ other => rfl
    | succ index =>
      obtain ⟨rest, hrest, rfl⟩ := Option.map_eq_some_iff.mp h
      obtain ⟨hself, hothers⟩ := ih hrest
      refine ⟨hself, fun other hother => ?_⟩
      cases other with
      | zero => rfl
      | succ other => exact hothers other fun heq => hother (congrArg Nat.succ heq)

lemma updateItem_of_getElem? {index : Nat} {f : Value → Option Value} {items : List Value}
    {value value' : Value} (hget : items[index]? = some value) (hf : f value = some value') :
    ∃ items', updateItem index f items = some items' := by
  induction items generalizing index with
  | nil => simp at hget
  | cons head items ih =>
    cases index with
    | zero =>
      obtain rfl := Option.some.inj hget
      exact ⟨value' :: items, by rw [updateItem, hf, Option.map_some]⟩
    | succ index =>
      obtain ⟨items', hitems⟩ := ih hget
      exact ⟨head :: items', by rw [updateItem, hitems, Option.map_some]⟩

lemma find?_updateField_self {key : String} {f : Value → Option Value}
    {fields fields' : List (String × Value)} (h : updateField key f fields = some fields') :
    ∃ value value', (object fields).get key = some value ∧ f value = some value' ∧
      (object fields').get key = some value' := by
  induction fields generalizing fields' with
  | nil => simp [updateField] at h
  | cons field fields ih =>
    obtain ⟨k, value⟩ := field
    by_cases hk : k = key
    · simp only [updateField, hk, if_true] at h
      obtain ⟨value', hvalue, rfl⟩ := Option.map_eq_some_iff.mp h
      exact ⟨value, value', by simp [Value.get, hk], hvalue, by simp [Value.get]⟩
    · simp only [updateField, hk, if_false] at h
      obtain ⟨rest, hrest, rfl⟩ := Option.map_eq_some_iff.mp h
      obtain ⟨source, target, hsource, hf, htarget⟩ := ih hrest
      refine ⟨source, target, ?_, hf, ?_⟩
      · simpa [Value.get, hk] using hsource
      · simpa [Value.get, hk] using htarget

/-- Updating the field under a key maps it and keeps the others. -/
lemma updateField_of_mem {key : String} {f : Value → Option Value} {value value' : Value}
    {fields : List (String × Value)} (hnodup : (fields.map Prod.fst).Nodup)
    (hmem : (key, value) ∈ fields) (hf : f value = some value') (content : String × Value → Value)
    (hself : content (key, value) = value')
    (hothers : ∀ field ∈ fields, field.1 ≠ key → content field = field.2) :
    updateField key f fields = some (fields.map fun field => (field.1, content field)) := by
  induction fields with
  | nil => simp at hmem
  | cons field fields ih =>
    obtain ⟨k, old⟩ := field
    obtain ⟨hhead, htail⟩ := List.nodup_cons.mp hnodup
    rcases List.mem_cons.mp hmem with heq | hmem
    · obtain ⟨rfl, rfl⟩ := Prod.mk.inj heq
      have hrest : (fields.map fun field => (field.1, content field)) = fields := by
        conv_rhs => rw [← List.map_id fields]
        refine List.map_congr_left fun field hfield => ?_
        have hne : field.1 ≠ key := by
          rintro rfl
          exact hhead (List.mem_map.mpr ⟨field, hfield, rfl⟩)
        rw [hothers field (List.mem_cons_of_mem _ hfield) hne, id]
      rw [updateField, if_pos rfl, hf, Option.map_some, List.map_cons, hself, hrest]
    · have hne : k ≠ key := by
        rintro rfl
        exact hhead (List.mem_map.mpr ⟨_, hmem, rfl⟩)
      have hrest := ih htail hmem fun field hfield => hothers field (List.mem_cons_of_mem _ hfield)
      rw [updateField, if_neg hne, hrest, Option.map_some, List.map_cons,
        hothers (k, old) List.mem_cons_self hne]

/-- Replacing the string at a path rewrites that string and no other. -/
lemma replaceLeaf_of_textAt {value : Value} {path : List String} {text : String}
    (h : TextAt value path text) (hkeyed : value.Keyed) (content : String) :
    replaceLeaf content path value = some (mapText (setText path content) value) := by
  induction h with
  | here text => rfl
  | @field fields key value path text hget htext ih =>
    obtain ⟨hnodup, hvalues⟩ := keyed_object.mp hkeyed
    have hmem := (get_object_iff hnodup).mp hget
    have hinner := ih (hvalues _ hmem)
    rw [replaceLeaf, replace_object, updateField_of_mem hnodup hmem hinner
      (fun field => mapText (fun rest => setText (key :: path) content (field.1 :: rest)) field.2),
      mapText_object, Option.map_some]
    · congr 1
      funext rest old
      simp [setText]
    · intro field hfield hne
      have hkeep : (fun rest => setText (key :: path) content (field.1 :: rest)) =
          fun _ old => old := by
        funext rest old
        simp [setText, hne]
      rw [hkeep, mapText_self]
  | @item items index value path text hget htext ih =>
    rw [keyed_array] at hkeyed
    have hinner := ih (hkeyed _ (List.mem_of_getElem? hget))
    obtain ⟨items', hitems⟩ := updateItem_of_getElem? hget hinner
    obtain ⟨⟨old, new, hold, hnew, hnew'⟩, hothers⟩ := updateItem_eq_some hitems
    obtain rfl := Option.some.inj (hget.symm.trans hold)
    obtain rfl := Option.some.inj (hinner.symm.trans hnew)
    rw [replaceLeaf, replace_array, parseIndex_repr, Option.bind_some, hitems, Option.map_some,
      mapText_array]
    congr 2
    refine List.ext_getElem? fun other => ?_
    rw [getElem?_mapTextItems, Nat.zero_add]
    by_cases hother : other = index
    · subst hother
      rw [hnew', hget, Option.map_some]
      congr 2
      funext rest old
      simp [setText]
    · rw [hothers other hother]
      have hkeep : (fun rest => setText (index.repr :: path) content (other.repr :: rest)) =
          fun _ old => old := by
        funext rest old
        have hne : other.repr ≠ index.repr := fun heq => hother (repr_injective heq)
        simp [setText, hne]
      rw [hkeep]
      cases items[other]? with
      | none => rfl
      | some item => rw [Option.map_some, mapText_self]

/-- Replacing the string at a path below the root rewrites that string and no other. -/
lemma replace_of_textAt {line : Value} {segment : String} {rest : List String} {text : String}
    (h : TextAt line (segment :: rest) text) (hkeyed : line.Keyed) (content : String) :
    replace content (segment :: rest) line =
      some (mapText (setText (segment :: rest) content) line) :=
  replaceLeaf_of_textAt h hkeyed content

/-- Every collected path leads to a string of the collected length. -/
lemma textAt_of_mem_collect {value : Value} (hkeyed : value.Keyed) {before path : List String}
    {size : Nat} (h : (size, path) ∈ collect before value) :
    ∃ rest text, path = before ++ rest ∧ TextAt value rest text ∧ size = text.utf8ByteSize := by
  induction value using Value.ind generalizing before with
  | null => simp [collect] at h
  | bool b => simp [collect] at h
  | int n => simp [collect] at h
  | float literal => simp [collect] at h
  | string text =>
    simp only [collect, List.mem_singleton, Prod.mk.injEq] at h
    exact ⟨[], text, by simp [h.2], .here text, h.1⟩
  | array items ih =>
    rw [keyed_array] at hkeyed
    have hitems : ∀ (start : Nat) (tail : List Value),
        (∀ index value, tail[index]? = some value → items[start + index]? = some value) →
          (size, path) ∈ collectItems before start tail →
            ∃ (index : Nat) (value : Value), items[index]? = some value ∧
              (size, path) ∈ collect (before ++ [index.repr]) value := by
      intro start tail hindex hmem
      induction tail generalizing start with
      | nil => simp [collectItems] at hmem
      | cons item tail ihtail =>
        rw [collectItems, List.mem_append] at hmem
        rcases hmem with hmem | hmem
        · exact ⟨start, item, hindex 0 item rfl, hmem⟩
        · refine ihtail (start + 1) (fun index value hget => ?_) hmem
          have hnext := hindex (index + 1) value hget
          rwa [Nat.add_comm index 1, ← Nat.add_assoc] at hnext
    obtain ⟨index, value, hget, hmem⟩ :=
      hitems 0 items (fun index value hget => by rwa [Nat.zero_add]) h
    have hvalue := List.mem_of_getElem? hget
    obtain ⟨rest, text, rfl, htext, hsize⟩ := ih value hvalue (hkeyed value hvalue) hmem
    exact ⟨index.repr :: rest, text, by simp, .item hget htext, hsize⟩
  | object fields ih =>
    obtain ⟨hnodup, hvalues⟩ := keyed_object.mp hkeyed
    have hfields : ∀ tail : List (String × Value), tail ⊆ fields →
        (size, path) ∈ collectFields before tail →
          ∃ field ∈ fields, (size, path) ∈ collect (before ++ [field.1]) field.2 := by
      intro tail hsub hmem
      induction tail with
      | nil => simp [collectFields] at hmem
      | cons field tail ihtail =>
        rw [collectFields, List.mem_append] at hmem
        rcases hmem with hmem | hmem
        · exact ⟨field, hsub List.mem_cons_self, hmem⟩
        · exact ihtail (fun other hother => hsub (List.mem_cons_of_mem _ hother)) hmem
    obtain ⟨field, hfield, hmem⟩ := hfields fields (List.Subset.refl _) h
    obtain ⟨rest, text, rfl, htext, hsize⟩ := ih field hfield (hvalues field hfield) hmem
    exact ⟨field.1 :: rest, text, by simp, .field ((get_object_iff hnodup).mpr hfield) htext, hsize⟩

/-! ### Paths that survive joining -/

/-- Segments that are not empty and hold no separator. -/
def Plain (path : List String) : Prop := ∀ segment ∈ path, segment ≠ "" ∧ '/' ∉ segment.toList

instance (path : List String) : Decidable (Plain path) :=
  inferInstanceAs (Decidable (∀ segment ∈ path, _))

lemma plain_cons {segment : String} {path : List String} :
    Plain (segment :: path) ↔ (segment ≠ "" ∧ '/' ∉ segment.toList) ∧ Plain path := by
  simp [Plain]

/-- An array index is never the segment that breaks a path. -/
lemma plain_repr (index : Nat) : index.repr ≠ "" ∧ '/' ∉ index.repr.toList := by
  refine ⟨fun heq => repr_ne_empty index (by rw [heq]; rfl), fun hmem => ?_⟩
  exact absurd (isDigit_of_mem_repr hmem) (by decide)

/-- Splitting what was joined gives a plain path back. -/
lemma pathSegments_joinPath {path : List String} (h : Plain path) (hne : path ≠ []) :
    pathSegments (joinPath path) = path := by
  have hsplit : ((joinPath path).toList).splitOn '/' = path.map String.toList := by
    rw [joinPath, String.toList_intercalate]
    refine List.splitOn_intercalate '/' (fun segment hsegment => ?_) (by simpa using hne)
    obtain ⟨text, htext, rfl⟩ := List.mem_map.mp hsegment
    exact (h text htext).2
  have hfilter : (path.map String.toList).filter (· ≠ []) = path.map String.toList := by
    refine List.filter_eq_self.mpr fun segment hsegment => ?_
    obtain ⟨text, htext, rfl⟩ := List.mem_map.mp hsegment
    exact decide_eq_true fun hnil => (h text htext).1 (String.toList_inj.mp hnil)
  rw [pathSegments, hsplit, hfilter, List.map_map]
  conv_rhs => rw [← List.map_id path]
  refine List.map_congr_left fun text _ => ?_
  rw [Function.comp_apply, String.ofList_toList, id]

/-- What splitting gives is plain. -/
lemma plain_pathSegments (path : String) : Plain (pathSegments path) := by
  intro segment hsegment
  obtain ⟨chars, hchars, rfl⟩ := List.mem_map.mp hsegment
  obtain ⟨hmem, hne⟩ := List.mem_filter.mp hchars
  refine ⟨fun hempty => of_decide_eq_true hne ?_, ?_⟩
  · rw [← String.toList_ofList (l := chars), hempty]
    rfl
  · rw [String.toList_ofList]
    exact notMem_splitOn hmem

/-- A plain path never reaches a string on another kind of path. -/
lemma textAt_replaceLeaf {value value' : Value} {path target : List String}
    {text content : String} (h : TextAt value path text) (hpath : ¬Plain path)
    (htarget : Plain target) (hreplace : replaceLeaf content target value = some value') :
    TextAt value' path text := by
  induction h generalizing target value' with
  | here text => exact absurd (by simp [Plain]) hpath
  | @field fields key value path text hget _ ih =>
    cases target with
    | nil => simp [replaceLeaf] at hreplace
    | cons segment rest =>
      rw [replaceLeaf, replace_object] at hreplace
      obtain ⟨fields', hfields, rfl⟩ := Option.map_eq_some_iff.mp hreplace
      by_cases hkey : key = segment
      · subst hkey
        obtain ⟨old, new, hold, hnew, hnew'⟩ := find?_updateField_self hfields
        obtain rfl := Option.some.inj (hget.symm.trans hold)
        rw [plain_cons] at hpath htarget
        exact .field hnew' (ih (fun hplain => hpath ⟨htarget.1, hplain⟩) htarget.2 hnew)
      · refine .field ?_ ‹_›
        rw [Value.get, find?_updateField_ne hkey hfields]
        exact hget
  | @item items index value path text hget _ ih =>
    cases target with
    | nil => simp [replaceLeaf] at hreplace
    | cons segment rest =>
      rw [replaceLeaf, replace_array] at hreplace
      obtain ⟨place, -, hreplace⟩ := Option.bind_eq_some_iff.mp hreplace
      obtain ⟨items', hitems, rfl⟩ := Option.map_eq_some_iff.mp hreplace
      obtain ⟨⟨old, new, hold, hnew, hnew'⟩, hothers⟩ := updateItem_eq_some hitems
      by_cases hplace : index = place
      · subst hplace
        obtain rfl := Option.some.inj (hget.symm.trans hold)
        rw [plain_cons] at hpath htarget
        exact .item hnew' (ih (fun hplain => hpath ⟨plain_repr index, hplain⟩) htarget.2 hnew)
      · exact .item ((hothers index hplace).trans hget) ‹_›

/-- **What is never put back**: a string whose path has an empty segment or one with a
separator stays as it is, whatever field is restored. -/
theorem textAt_replaceStringField {value value' : Value} {path : List String}
    {text name content : String} (h : TextAt value path text) (hpath : ¬Plain path)
    (hreplace : replaceStringField value name content = some value') : TextAt value' path text := by
  rw [replaceStringField] at hreplace
  cases hsegments : pathSegments name with
  | nil => simp [hsegments, replace] at hreplace
  | cons segment rest =>
    have hplain := plain_pathSegments name
    rw [hsegments] at hreplace hplain
    exact textAt_replaceLeaf h hpath hplain hreplace

/-! ### The strings that are taken out -/

lemma takeBytes_eq_self {n : Nat} {text : List Char}
    (h : (String.ofList text).utf8ByteSize ≤ n) : takeBytes n text = text := by
  induction text generalizing n with
  | nil => rfl
  | cons c text ih =>
    have hsize : (String.ofList (c :: text)).utf8ByteSize =
        c.utf8Size + (String.ofList text).utf8ByteSize := by
      rw [String.ofList_cons, String.utf8ByteSize_append, String.utf8ByteSize_singleton]
    rw [takeBytes, if_pos (by omega), ih (by omega)]

/-- Only a string longer than the preview gets shorter. -/
lemma previewBytes_lt {text reference : String}
    (h : (keptText text reference).utf8ByteSize < text.utf8ByteSize) :
    previewBytes < text.utf8ByteSize := by
  by_contra hshort
  have hpreview : preview text = text := by
    rw [preview, takeBytes_eq_self, String.ofList_toList]
    rw [String.ofList_toList]
    exact not_lt.mp hshort
  rw [keptText, hpreview] at h
  simp only [String.utf8ByteSize_append] at h
  omega

/-- One string taken out of a line: where it stood and the reference it went to. -/
structure Spill where
  path : List String
  text : String
  reference : String
  deriving DecidableEq, Repr

namespace Spill

/-- What stays in the line. -/
def kept (spill : Spill) : String := keptText spill.text spill.reference

/-- The record that travels beside the line. -/
def field (spill : Spill) : ExternalizedField :=
  ⟨joinPath spill.path, spill.reference, spill.text.utf8ByteSize, spill.kept.utf8ByteSize⟩

end Spill

section Loop

variable (blobs : BlobStore) (budget : Nat) (measure : Value → Nat)

/-- The string that the next round of `bound` takes out of a line. -/
def nextSpill (line : Value) (done : List String) : Option Spill :=
  if measure line ≤ budget then none
  else
    match largestCandidate line done with
    | none => none
    | some path =>
      match lookup path line with
      | some (.string text) =>
        match blobs.referenceFor text with
        | .error _ => none
        | .ok reference =>
          if text.utf8ByteSize ≤ (keptText text reference).utf8ByteSize then none
          else some ⟨path, text, reference⟩
      | _ => none

/-- The strings that the rounds of `bound` take out of a line, in order. -/
def spillsOf : Nat → Value → List String → List Spill
  | 0, _, _ => []
  | rounds + 1, line, done =>
    match nextSpill blobs budget measure line done with
    | none => []
    | some spill =>
      spill :: spillsOf rounds (mapText (setText spill.path spill.kept) line)
        (done ++ [joinPath spill.path])

end Loop

section Rounds

variable {blobs : BlobStore} {budget : Nat} {measure : Value → Nat}

/-- What is taken out stands in the line, may be taken out, was not taken out before,
and gets shorter. -/
lemma nextSpill_spec {line : Value} (hkeyed : line.Keyed) {done : List String} {spill : Spill}
    (h : nextSpill blobs budget measure line done = some spill) :
    TextAt line spill.path spill.text ∧ spills spill.path = true ∧
      joinPath spill.path ∉ done ∧ blobs.referenceFor spill.text = .ok spill.reference ∧
      spill.kept.utf8ByteSize < spill.text.utf8ByteSize := by
  unfold nextSpill at h
  split_ifs at h with hfits
  split at h
  · simp at h
  · rename_i path hcandidate
    obtain ⟨leaf, hleaf, rfl⟩ := Option.map_eq_some_iff.mp hcandidate
    have hmem := List.mem_of_mem_head? (Option.mem_def.mpr hleaf)
    rw [List.mem_insertionSort, List.mem_filter, Bool.and_eq_true] at hmem
    obtain ⟨hcollect, hspills, hdone⟩ := hmem
    obtain ⟨rest, text, hpath, htext, -⟩ := textAt_of_mem_collect hkeyed hcollect
    rw [List.nil_append] at hpath
    rw [← hpath] at htext
    rw [lookup_of_textAt htext] at h
    dsimp only at h
    split at h
    · simp at h
    · rename_i reference href
      split_ifs at h with hlong
      obtain rfl := Option.some.inj h
      exact ⟨htext, hspills, by simpa using hdone, href, not_le.mp hlong⟩

lemma exists_segment_of_spills {path : List String} (h : spills path = true) :
    ∃ first rest, path = first :: rest ∧ first ∉ envelopeFields := by
  cases path with
  | nil => simp [spills] at h
  | cons first rest =>
    rw [spills, Bool.and_eq_true] at h
    exact ⟨first, rest, rfl, by simpa using h.1⟩

/-- A round that takes a string out stores its bytes and keeps its bounded form. -/
lemma boundLoop_of_some {rounds : Nat} {line : Value} (hkeyed : line.Keyed)
    {spilled : List ExternalizedField} {spill : Spill}
    (hnext : nextSpill blobs budget measure line (spilled.map (·.field)) = some spill) :
    boundLoop blobs budget measure (rounds + 1) line spilled =
      (blobs.put spill.text >>= fun _ =>
        boundLoop blobs budget measure rounds (mapText (setText spill.path spill.kept) line)
          (spilled ++ [spill.field])) := by
  obtain ⟨htext, hspills, -, href, hlong⟩ := nextSpill_spec hkeyed hnext
  obtain ⟨first, rest, hpath, -⟩ := exists_segment_of_spills hspills
  have hcandidate : largestCandidate line (spilled.map (·.field)) = some spill.path := by
    unfold nextSpill at hnext
    split_ifs at hnext
    split at hnext
    · simp at hnext
    · rename_i path hcandidate
      split at hnext
      · split at hnext
        · simp at hnext
        · split_ifs at hnext
          obtain rfl := Option.some.inj hnext
          exact hcandidate
      · simp at hnext
  have hfits : ¬measure line ≤ budget := by
    intro hfits
    rw [nextSpill, if_pos hfits] at hnext
    simp at hnext
  have hreplace : replace spill.kept spill.path line =
      some (mapText (setText spill.path spill.kept) line) := by
    rw [hpath] at htext ⊢
    exact replace_of_textAt htext hkeyed _
  have hkept : keptText spill.text spill.reference = spill.kept := rfl
  rw [boundLoop, if_neg hfits, hcandidate]
  simp only [lookup_of_textAt htext, href, bind, Except.bind]
  rw [hkept, if_neg (not_le.mpr hlong), hreplace]
  rfl

/-- One round: nothing is taken out, or the next string is, and its bytes are stored. -/
lemma boundLoop_succ {rounds : Nat} {line : Value} (hkeyed : line.Keyed)
    {spilled : List ExternalizedField} {result : Value × List ExternalizedField}
    (h : boundLoop blobs budget measure (rounds + 1) line spilled = .ok result) :
    (nextSpill blobs budget measure line (spilled.map (·.field)) = none ∧
        result = (line, spilled)) ∨
      ∃ spill, nextSpill blobs budget measure line (spilled.map (·.field)) = some spill ∧
        blobs.put spill.text = .ok () ∧
        boundLoop blobs budget measure rounds (mapText (setText spill.path spill.kept) line)
          (spilled ++ [spill.field]) = .ok result := by
  cases hnext : nextSpill blobs budget measure line (spilled.map (·.field)) with
  | none =>
    refine Or.inl ⟨rfl, ?_⟩
    unfold nextSpill at hnext
    unfold boundLoop at h
    split_ifs at h hnext with hfits
    · exact (Except.ok.inj h).symm
    · split at h
      · exact (Except.ok.inj h).symm
      · rename_i path hcandidate
        rw [hcandidate] at hnext
        dsimp only at hnext
        split at h
        · rename_i text hlookup
          rw [hlookup] at hnext
          dsimp only at hnext
          cases href : blobs.referenceFor text with
          | error e => simp [href, bind, Except.bind] at h
          | ok reference =>
            simp only [href, bind, Except.bind] at h
            rw [href] at hnext
            dsimp only at hnext
            split_ifs at h hnext with hlong
            exact (Except.ok.inj h).symm
        · exact (Except.ok.inj h).symm
  | some spill =>
    rw [boundLoop_of_some hkeyed hnext] at h
    obtain ⟨u, hput, hloop⟩ := Fallible.bind_eq_ok.mp h
    exact Or.inr ⟨spill, rfl, hput, hloop⟩

/-- The strings taken out of a line stand in it at different places. -/
lemma spillsOf_spec {rounds : Nat} {line : Value} (hkeyed : line.Keyed) {done : List String} :
    (∀ spill ∈ spillsOf blobs budget measure rounds line done,
      TextAt line spill.path spill.text ∧ spills spill.path = true ∧
        joinPath spill.path ∉ done ∧ blobs.referenceFor spill.text = .ok spill.reference ∧
        spill.kept.utf8ByteSize < spill.text.utf8ByteSize) ∧
      ((spillsOf blobs budget measure rounds line done).map (joinPath ·.path)).Nodup := by
  induction rounds generalizing line done with
  | zero => simp [spillsOf]
  | succ rounds ih =>
    cases hnext : nextSpill blobs budget measure line done with
    | none => simp [spillsOf, hnext]
    | some spill =>
      obtain ⟨hlater, hnodup⟩ := @ih _ (keyed_mapText hkeyed) (done ++ [joinPath spill.path])
      simp only [spillsOf, hnext]
      refine ⟨fun other hother => ?_, ?_⟩
      · rcases List.mem_cons.mp hother with rfl | hother
        · exact nextSpill_spec hkeyed hnext
        · obtain ⟨htext, hspills, hdone, href, hlong⟩ := hlater other hother
          rw [List.mem_append, not_or, List.mem_singleton] at hdone
          obtain ⟨source, hsource, heq⟩ := exists_of_textAt_mapText htext
          have hne : other.path ≠ spill.path := fun heq => hdone.2 (congrArg joinPath heq)
          rw [setText, if_neg hne] at heq
          exact ⟨heq ▸ hsource, hspills, hdone.1, href, hlong⟩
      · rw [List.map_cons, List.nodup_cons]
        refine ⟨fun hmem => ?_, hnodup⟩
        obtain ⟨other, hother, heq⟩ := List.mem_map.mp hmem
        have hdone := (hlater other hother).2.2.1
        rw [heq] at hdone
        exact hdone (List.mem_append_right _ (List.mem_singleton.mpr rfl))

/-- The rounds of `bound`: the strings taken out are stored and recorded, and the line
keeps their bounded forms. -/
lemma boundLoop_eq {rounds : Nat} {line line' : Value} (hkeyed : line.Keyed)
    {spilled spilled' : List ExternalizedField}
    (h : boundLoop blobs budget measure rounds line spilled = .ok (line', spilled')) :
    let taken := spillsOf blobs budget measure rounds line (spilled.map (·.field))
    line' = mapText (setTexts (taken.map fun spill => (spill.path, spill.kept))) line ∧
      spilled' = spilled ++ taken.map Spill.field ∧
      ∀ spill ∈ taken, blobs.put spill.text = .ok () := by
  induction rounds generalizing line spilled with
  | zero =>
    obtain ⟨rfl, rfl⟩ := Prod.mk.inj (Except.ok.inj h)
    refine ⟨(mapText_self line).symm, ?_, ?_⟩
    · simp [spillsOf]
    · simp [spillsOf]
  | succ rounds ih =>
    rcases boundLoop_succ hkeyed h with ⟨hnext, heq⟩ | ⟨spill, hnext, hput, hloop⟩
    · obtain ⟨rfl, rfl⟩ := Prod.mk.inj heq
      simp only [spillsOf, hnext]
      exact ⟨(mapText_self line').symm, by simp, by simp⟩
    · obtain ⟨hline, hspilled, hputs⟩ := ih (keyed_mapText hkeyed) hloop
      have hdone : (spilled ++ [spill.field]).map (·.field) =
          spilled.map (·.field) ++ [joinPath spill.path] := by
        rw [List.map_append]
        rfl
      rw [hdone] at hline hspilled hputs
      simp only [spillsOf, hnext]
      refine ⟨?_, ?_, ?_⟩
      · rw [hline, mapText_mapText]
        rfl
      · rw [hspilled, List.map_cons, List.append_assoc, List.singleton_append]
      · intro other hother
        rcases List.mem_cons.mp hother with rfl | hother
        · exact hput
        · exact hputs other hother

/-- The strings that `bound` takes out of a line. -/
def taken (line : Value) (blobs : BlobStore) (budget : Nat) (measure : Value → Nat) :
    List Spill :=
  spillsOf blobs budget measure maxSpillsPerLine line []

/-- **What `bound` leaves**: the line with the bounded form in place of every string it
takes out, whose bytes are stored, and a record of each. -/
theorem bound_eq {line line' : Value} (hkeyed : line.Keyed) {spilled : List ExternalizedField}
    (h : bound line blobs budget measure = .ok (line', spilled)) :
    line' = mapText (setTexts ((taken line blobs budget measure).map fun spill =>
        (spill.path, spill.kept))) line ∧
      spilled = (taken line blobs budget measure).map Spill.field ∧
      ∀ spill ∈ taken line blobs budget measure, blobs.put spill.text = .ok () :=
  boundLoop_eq hkeyed h

end Rounds

end Payload

end Rupi
