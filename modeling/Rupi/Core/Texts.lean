import Rupi.Core.DecodeEvent

/-!
The strings of a JSON tree, by their paths.

- `Value.TextAt`: the string that a path leads to.
- `Value.mapText`: a tree with every string rewritten, given its path; two rewrites
  that agree on the strings of a tree give one tree (`mapText_congr`).
- `Value.Keyed`: no object has a key twice.
- `setText`, `setTexts`: the rewrites that put given strings at given paths.
-/

namespace Rupi

namespace Value

/-- The induction principle of the nested inductive: a property of the atoms that is
inherited from items and fields holds of every value. -/
@[elab_as_elim]
theorem ind {P : Value → Prop} (null : P null) (bool : ∀ b, P (bool b)) (int : ∀ n, P (int n))
    (float : ∀ literal, P (float literal)) (string : ∀ text, P (string text))
    (array : ∀ items, (∀ item ∈ items, P item) → P (array items))
    (object : ∀ fields, (∀ field ∈ fields, P field.2) → P (object fields)) (value : Value) :
    P value :=
  @Value.rec P (fun items => ∀ item ∈ items, P item) (fun fields => ∀ field ∈ fields, P field.2)
    (fun field => P field.2) null bool int float string (fun items ih => array items ih) (fun fields ih => object fields ih)
    (fun _ h => absurd h (by simp))
    (fun _ _ ihhead ihtail _ h => by
      rcases List.mem_cons.mp h with rfl | h
      · exact ihhead
      · exact ihtail _ h)
    (fun _ h => absurd h (by simp))
    (fun _ _ ihhead ihtail _ h => by
      rcases List.mem_cons.mp h with rfl | h
      · exact ihhead
      · exact ihtail _ h)
    (fun _ _ ih => ih) value

/-! ### The string at a path -/

/-- Different indices are spelled differently. -/
lemma repr_injective {m n : Nat} (h : m.repr = n.repr) : m = n := by
  have hdigits : Nat.toDigits 10 m = Nat.toDigits 10 n := by
    rw [← Nat.toList_repr, ← Nat.toList_repr, h]
  have hvalue := congrArg (fun digits => Nat.ofDigitChars 10 digits 0) hdigits
  simpa only [Nat.ofDigitChars_ten_toDigits] using hvalue

/-- The path leads to this string: keys through objects, decimal indices through arrays. -/
inductive TextAt : Value → List String → String → Prop
  | here (text : String) : TextAt (string text) [] text
  | field {fields : List (String × Value)} {key : String} {value : Value} {path : List String}
      {text : String} (hget : (object fields).get key = some value)
      (htext : TextAt value path text) : TextAt (object fields) (key :: path) text
  | item {items : List Value} {index : Nat} {value : Value} {path : List String} {text : String}
      (hget : items[index]? = some value) (htext : TextAt value path text) :
      TextAt (array items) (index.repr :: path) text

/-- A path leads to one string. -/
lemma TextAt.unique {value : Value} {path : List String} {text text' : String}
    (h : TextAt value path text) (h' : TextAt value path text') : text = text' := by
  induction h with
  | here text =>
    cases h'
    rfl
  | field hget _ ih =>
    cases h' with
    | field hget' htext' =>
      obtain rfl := Option.some.inj (hget.symm.trans hget')
      exact ih htext'
  | @item items index value path text hget _ ih =>
    generalize hseg : index.repr = segment at h'
    cases h' with
    | @item _ index' value' _ _ hget' htext' =>
      obtain rfl := repr_injective hseg
      obtain rfl := Option.some.inj (hget.symm.trans hget')
      exact ih htext'

@[simp] lemma textAt_string {text text' : String} {path : List String} :
    TextAt (string text) path text' ↔ path = [] ∧ text' = text := by
  constructor
  · intro h
    cases h
    exact ⟨rfl, rfl⟩
  · rintro ⟨rfl, rfl⟩
    exact .here _

@[simp] lemma textAt_object {fields : List (String × Value)} {path : List String}
    {text : String} :
    TextAt (object fields) path text ↔
      ∃ key value rest, path = key :: rest ∧ (object fields).get key = some value ∧
        TextAt value rest text := by
  constructor
  · intro h
    cases h with
    | field hget htext => exact ⟨_, _, _, rfl, hget, htext⟩
  · rintro ⟨key, value, rest, rfl, hget, htext⟩
    exact .field hget htext

lemma textAt_array {items : List Value} {path : List String} {text : String} :
    TextAt (array items) path text ↔
      ∃ (index : Nat) (value : Value) (rest : List String), path = index.repr :: rest ∧
        items[index]? = some value ∧ TextAt value rest text := by
  constructor
  · intro h
    cases h with
    | item hget htext => exact ⟨_, _, _, rfl, hget, htext⟩
  · rintro ⟨index, value, rest, rfl, hget, htext⟩
    exact .item hget htext

@[simp] lemma not_textAt_null (path : List String) (text : String) : ¬TextAt null path text :=
  fun h => by cases h

@[simp] lemma not_textAt_bool (b : Bool) (path : List String) (text : String) :
    ¬TextAt (bool b) path text := fun h => by cases h

@[simp] lemma not_textAt_int (n : Int) (path : List String) (text : String) :
    ¬TextAt (int n) path text := fun h => by cases h

@[simp] lemma not_textAt_float (literal : NumberLiteral) (path : List String) (text : String) :
    ¬TextAt (float literal) path text := fun h => by cases h

/-! ### Distinct keys -/

mutual

/-- No object of the tree has a key twice, as no map has. -/
def keyed : Value → Bool
  | object fields => decide (fields.map Prod.fst).Nodup && keyedFields fields
  | array items => keyedItems items
  | _ => true

def keyedItems : List Value → Bool
  | [] => true
  | item :: items => keyed item && keyedItems items

def keyedFields : List (String × Value) → Bool
  | [] => true
  | (_, value) :: fields => keyed value && keyedFields fields

end

/-- `keyed`, as a proposition. -/
abbrev Keyed (value : Value) : Prop := value.keyed = true

lemma keyedItems_iff {items : List Value} :
    keyedItems items = true ↔ ∀ item ∈ items, item.Keyed := by
  induction items with
  | nil => simp [keyedItems]
  | cons item items ih => simp [keyedItems, ih]

lemma keyedFields_iff {fields : List (String × Value)} :
    keyedFields fields = true ↔ ∀ field ∈ fields, field.2.Keyed := by
  induction fields with
  | nil => simp [keyedFields]
  | cons field fields ih => simp [keyedFields, ih]

@[simp] lemma keyed_object {fields : List (String × Value)} :
    (object fields).Keyed ↔
      (fields.map Prod.fst).Nodup ∧ ∀ field ∈ fields, field.2.Keyed := by
  rw [Keyed, keyed, Bool.and_eq_true, decide_eq_true_iff, keyedFields_iff]

@[simp] lemma keyed_array {items : List Value} :
    (array items).Keyed ↔ ∀ item ∈ items, item.Keyed := by
  rw [Keyed, keyed, keyedItems_iff]

@[simp] lemma keyed_null : null.Keyed := rfl
@[simp] lemma keyed_bool (b : Bool) : (bool b).Keyed := rfl
@[simp] lemma keyed_int (n : Int) : (int n).Keyed := rfl
@[simp] lemma keyed_float (literal : NumberLiteral) : (float literal).Keyed := rfl
@[simp] lemma keyed_string (text : String) : (string text).Keyed := rfl
@[simp] lemma keyed_ofNat (n : Nat) : (ofNat n).Keyed := rfl

/-- With distinct keys the value under a key is the value of the field with it. -/
lemma get_object_iff {fields : List (String × Value)} (hnodup : (fields.map Prod.fst).Nodup)
    {key : String} {value : Value} :
    (object fields).get key = some value ↔ (key, value) ∈ fields := by
  induction fields with
  | nil => simp [get]
  | cons field fields ih =>
    obtain ⟨hhead, htail⟩ := List.nodup_cons.mp hnodup
    have hget : (object (field :: fields)).get key =
        if field.1 = key then some field.2 else (object fields).get key := by
      by_cases hkey : field.1 = key <;> simp [get, hkey]
    rw [hget]
    split_ifs with hkey
    · constructor
      · intro h
        rw [← hkey, ← Option.some.inj h]
        exact List.mem_cons_self
      · intro h
        rcases List.mem_cons.mp h with heq | hmem
        · rw [← heq]
        · exact absurd (hkey ▸ List.mem_map_of_mem hmem) hhead
    · rw [ih htail, List.mem_cons]
      constructor
      · exact Or.inr
      · rintro (heq | hmem)
        · exact absurd (congrArg Prod.fst heq).symm hkey
        · exact hmem

lemma nodup_keys_of_inMapOrder {fields : List (String × α)} (h : InMapOrder fields) :
    (fields.map Prod.fst).Nodup := by
  rw [List.Nodup, List.pairwise_map]
  refine h.imp ?_
  intro a b hlt heq
  exact String.lt_irrefl _ (heq ▸ hlt)

/-- An object built from fields has no key twice. -/
lemma nodup_keys_ofFields (fields : List (String × Option Value)) :
    ((ofFields fields).map Prod.fst).Nodup :=
  nodup_keys_of_inMapOrder (inMapOrder_ofFields fields)

/-- An object built from fields has a value under a key when the fields do. -/
lemma mem_ofFields {fields : List (String × Option Value)} {key : String} {value : Value}
    (h : (key, value) ∈ ofFields fields) : (key, some value) ∈ fields := by
  induction fields with
  | nil => simp [ofFields] at h
  | cons field fields ih =>
    obtain ⟨name, content | content⟩ := field
    · exact List.mem_cons_of_mem _ (ih h)
    · rw [ofFields] at h
      by_cases hkey : key = name
      · subst hkey
        have hnodup := nodup_keys_of_inMapOrder
          (@inMapOrder_insertField key content _ (inMapOrder_ofFields fields))
        have hget := (get_object_iff hnodup).mpr h
        rw [get_insertField_self] at hget
        rw [Option.some.inj hget]
        exact List.mem_cons_self
      · rcases mem_insertField h with heq | hmem
        · exact absurd heq hkey
        · exact List.mem_cons_of_mem _ (ih hmem)

lemma keyed_ofObject {fields : List (String × Option Value)}
    (h : ∀ key value, (key, some value) ∈ fields → value.Keyed) : (ofObject fields).Keyed :=
  keyed_object.mpr ⟨nodup_keys_ofFields fields, fun _ hfield => h _ _ (mem_ofFields hfield)⟩

/-- The strings of an object built from fields are those of the fields. -/
lemma mem_of_textAt_ofObject {fields : List (String × Option Value)} {path : List String}
    {text : String} (h : TextAt (ofObject fields) path text) :
    ∃ key value rest, path = key :: rest ∧ (key, some value) ∈ fields ∧
      TextAt value rest text := by
  obtain ⟨key, value, rest, hpath, hget, htext⟩ := textAt_object.mp h
  exact ⟨key, value, rest, hpath,
    mem_ofFields ((get_object_iff (nodup_keys_ofFields fields)).mp hget), htext⟩

lemma textAt_ofObject {fields : List (String × Option Value)}
    (hnodup : (fields.map Prod.fst).Nodup) {key : String} {value : Value} {path : List String}
    {text : String} (hmem : (key, some value) ∈ fields) (htext : TextAt value path text) :
    TextAt (ofObject fields) (key :: path) text :=
  .field (carries_ofObject hnodup _ hmem) htext

/-! ### Rewriting the strings -/

mutual

/-- The tree with every string rewritten, given the path that leads to it. -/
def mapText (f : List String → String → String) : Value → Value
  | object fields => object (mapTextFields f fields)
  | array items => array (mapTextItems f 0 items)
  | string text => string (f [] text)
  | value => value

def mapTextFields (f : List String → String → String) :
    List (String × Value) → List (String × Value)
  | [] => []
  | (key, value) :: fields =>
    (key, mapText (fun path => f (key :: path)) value) :: mapTextFields f fields

def mapTextItems (f : List String → String → String) (index : Nat) : List Value → List Value
  | [] => []
  | value :: items =>
    mapText (fun path => f (index.repr :: path)) value :: mapTextItems f (index + 1) items

end

section MapText

variable {f g : List String → String → String}

lemma mapTextFields_eq (fields : List (String × Value)) :
    mapTextFields f fields =
      fields.map fun field => (field.1, mapText (fun path => f (field.1 :: path)) field.2) := by
  induction fields with
  | nil => rfl
  | cons field fields ih => rw [mapTextFields, ih, List.map_cons]

lemma getElem?_mapTextItems (start index : Nat) (items : List Value) :
    (mapTextItems f start items)[index]? =
      items[index]?.map (mapText fun path => f ((start + index).repr :: path)) := by
  induction items generalizing start index with
  | nil => rfl
  | cons item items ih =>
    cases index with
    | zero => rfl
    | succ index =>
      rw [mapTextItems, List.getElem?_cons_succ, List.getElem?_cons_succ, ih,
        Nat.add_right_comm, Nat.add_assoc]

@[simp] lemma mapText_object (fields : List (String × Value)) :
    mapText f (object fields) =
      object (fields.map fun field =>
        (field.1, mapText (fun path => f (field.1 :: path)) field.2)) := by
  rw [mapText, mapTextFields_eq]

@[simp] lemma mapText_string (text : String) : mapText f (string text) = string (f [] text) := rfl
@[simp] lemma mapText_null : mapText f null = null := rfl
@[simp] lemma mapText_bool (b : Bool) : mapText f (bool b) = bool b := rfl
@[simp] lemma mapText_int (n : Int) : mapText f (int n) = int n := rfl
@[simp] lemma mapText_float (literal : NumberLiteral) : mapText f (float literal) = float literal := rfl
@[simp] lemma mapText_ofNat (n : Nat) : mapText f (ofNat n) = ofNat n := rfl

lemma mapText_array (items : List Value) : mapText f (array items) = array (mapTextItems f 0 items) :=
  rfl

lemma get_mapText (value : Value) (key : String) :
    (mapText f value).get key = (value.get key).map (mapText fun path => f (key :: path)) := by
  cases value with
  | object fields =>
    rw [mapText_object, get, get]
    induction fields with
    | nil => rfl
    | cons field fields ih =>
      by_cases hkey : field.1 = key
      · simp [hkey]
      · simpa [hkey] using ih
  | _ => rfl

/-- The keys stay. -/
lemma keyed_mapText {value : Value} (h : value.Keyed) : (mapText f value).Keyed := by
  induction value using Value.ind generalizing f with
  | null => rfl
  | bool b => rfl
  | int n => rfl
  | float literal => rfl
  | string text => rfl
  | array items ih =>
    rw [keyed_array] at h
    rw [mapText_array, keyed_array]
    intro item hitem
    obtain ⟨index, hindex⟩ := List.mem_iff_getElem?.mp hitem
    rw [getElem?_mapTextItems] at hindex
    obtain ⟨source, hsource, rfl⟩ := Option.map_eq_some_iff.mp hindex
    have hmem := List.mem_of_getElem? hsource
    exact ih source hmem (h source hmem)
  | object fields ih =>
    obtain ⟨hnodup, hvalues⟩ := keyed_object.mp h
    rw [mapText_object, keyed_object, List.map_map]
    refine ⟨hnodup, fun field hfield => ?_⟩
    obtain ⟨source, hsource, rfl⟩ := List.mem_map.mp hfield
    exact ih source hsource (hvalues source hsource)

/-- The strings of a rewritten tree are the rewritten strings. -/
lemma textAt_mapText {value : Value} {path : List String} {text : String}
    (h : TextAt value path text) : TextAt (mapText f value) path (f path text) := by
  induction h generalizing f with
  | here text => exact .here _
  | @field fields key value path text hget _ ih =>
    rw [mapText_object]
    refine .field ?_ (@ih fun path => f (key :: path))
    rw [← mapText_object, get_mapText, hget, Option.map_some]
  | @item items index value path text hget _ ih =>
    rw [mapText_array]
    refine .item ?_ (@ih fun path => f (index.repr :: path))
    rw [getElem?_mapTextItems, hget, Nat.zero_add, Option.map_some]

lemma exists_of_textAt_mapText {value : Value} {path : List String} {text : String}
    (h : TextAt (mapText f value) path text) :
    ∃ source, TextAt value path source ∧ text = f path source := by
  induction value using Value.ind generalizing f path with
  | null => cases h
  | bool b => cases h
  | int n => cases h
  | float literal => cases h
  | string source =>
    obtain ⟨rfl, rfl⟩ := textAt_string.mp h
    exact ⟨source, .here _, rfl⟩
  | array items ih =>
    obtain ⟨index, value, rest, rfl, hget, htext⟩ := textAt_array.mp h
    rw [getElem?_mapTextItems, Nat.zero_add] at hget
    obtain ⟨item, hitem, rfl⟩ := Option.map_eq_some_iff.mp hget
    obtain ⟨source, hsource, rfl⟩ := ih item (List.mem_of_getElem? hitem) htext
    exact ⟨source, .item hitem hsource, rfl⟩
  | object fields ih =>
    rw [mapText_object] at h
    obtain ⟨key, value, rest, rfl, hget, htext⟩ := textAt_object.mp h
    rw [← mapText_object, get_mapText] at hget
    obtain ⟨content, hcontent, rfl⟩ := Option.map_eq_some_iff.mp hget
    obtain ⟨field, hfield, rfl⟩ := Option.map_eq_some_iff.mp hcontent
    obtain ⟨source, hsource, rfl⟩ := ih field (List.mem_of_find?_eq_some hfield) htext
    exact ⟨source, .field hcontent hsource, rfl⟩

/-- Two rewrites that agree on the strings of a tree give one tree. -/
theorem mapText_congr {value : Value} (hkeyed : value.Keyed)
    (h : ∀ path text, TextAt value path text → f path text = g path text) :
    mapText f value = mapText g value := by
  induction value using Value.ind generalizing f g with
  | null => rfl
  | bool b => rfl
  | int n => rfl
  | float literal => rfl
  | string text => rw [mapText_string, mapText_string, h [] text (.here text)]
  | array items ih =>
    rw [keyed_array] at hkeyed
    rw [mapText_array, mapText_array]
    congr 1
    refine List.ext_getElem? fun index => ?_
    rw [getElem?_mapTextItems, getElem?_mapTextItems, Nat.zero_add]
    refine Option.map_congr fun item hitem => ?_
    have hmem := List.mem_of_getElem? hitem
    exact ih item hmem (hkeyed item hmem) fun path text htext => h _ _ (.item hitem htext)
  | object fields ih =>
    obtain ⟨hnodup, hvalues⟩ := keyed_object.mp hkeyed
    rw [mapText_object, mapText_object]
    congr 1
    refine List.map_congr_left fun field hfield => ?_
    have hget := (get_object_iff hnodup).mpr hfield
    rw [ih field hfield (hvalues field hfield) fun path text htext => h _ _ (.field hget htext)]

lemma mapText_self (value : Value) : mapText (fun _ text => text) value = value := by
  induction value using Value.ind with
  | null => rfl
  | bool b => rfl
  | int n => rfl
  | float literal => rfl
  | string text => rfl
  | array items ih =>
    rw [mapText_array]
    congr 1
    refine List.ext_getElem? fun index => ?_
    rw [getElem?_mapTextItems]
    cases hitem : items[index]? with
    | none => rfl
    | some item => rw [Option.map_some, ih item (List.mem_of_getElem? hitem)]
  | object fields ih =>
    rw [mapText_object]
    congr 1
    conv_rhs => rw [← List.map_id fields]
    refine List.map_congr_left fun field hfield => ?_
    rw [ih field hfield, id]

/-- A rewrite that keeps the strings of a tree keeps the tree. -/
lemma mapText_eq_self {value : Value} (hkeyed : value.Keyed)
    (h : ∀ path text, TextAt value path text → f path text = text) : mapText f value = value := by
  rw [mapText_congr hkeyed h, mapText_self]

lemma mapText_mapText (value : Value) :
    mapText g (mapText f value) = mapText (fun path text => g path (f path text)) value := by
  induction value using Value.ind generalizing f g with
  | null => rfl
  | bool b => rfl
  | int n => rfl
  | float literal => rfl
  | string text => rfl
  | array items ih =>
    rw [mapText_array, mapText_array, mapText_array]
    congr 1
    refine List.ext_getElem? fun index => ?_
    simp only [getElem?_mapTextItems, Option.map_map]
    cases hitem : items[index]? with
    | none => rfl
    | some item =>
      rw [Option.map_some, Option.map_some, Function.comp_apply,
        ih item (List.mem_of_getElem? hitem)]
  | object fields ih =>
    rw [mapText_object, mapText_object, mapText_object, List.map_map]
    congr 1
    refine List.map_congr_left fun field hfield => ?_
    rw [Function.comp_apply, ih field hfield]

lemma insertField_map (content : String × Value → Value) (key : String) (value : Value)
    (fields : List (String × Value)) :
    insertField key (content (key, value)) (fields.map fun field => (field.1, content field)) =
      (insertField key value fields).map fun field => (field.1, content field) := by
  induction fields with
  | nil => rfl
  | cons field fields ih =>
    rw [List.map_cons, insertField, insertField]
    split_ifs
    · rfl
    · rfl
    · rw [ih, List.map_cons]

/-- Rewriting an object rewrites the fields it is built from. -/
lemma mapText_ofObject (fields : List (String × Option Value)) :
    mapText f (ofObject fields) =
      ofObject (fields.map fun field =>
        (field.1, field.2.map (mapText fun path => f (field.1 :: path)))) := by
  rw [ofObject, ofObject, mapText_object]
  congr 1
  induction fields with
  | nil => rfl
  | cons field fields ih =>
    obtain ⟨key, value | value⟩ := field
    · exact ih
    · rw [List.map_cons, ofFields, Option.map_some, ofFields, ← ih]
      exact (insertField_map (fun field => mapText (fun path => f (field.1 :: path)) field.2)
        key value _).symm

end MapText

end Value

/-! ### Putting strings at paths -/

/-- The rewrite that puts a string at a path. -/
def setText (path : List String) (content : String) (place : List String) (text : String) : String :=
  if place = path then content else text

/-- The rewrite that puts strings at paths, one after the other. -/
def setTexts : List (List String × String) → List String → String → String
  | [], _, text => text
  | (path, content) :: puts, place, text => setTexts puts place (setText path content place text)

lemma setTexts_of_notMem {puts : List (List String × String)} {path : List String}
    (h : path ∉ puts.map Prod.fst) (text : String) : setTexts puts path text = text := by
  induction puts generalizing text with
  | nil => rfl
  | cons put puts ih =>
    obtain ⟨hne, hrest⟩ : path ≠ put.1 ∧ path ∉ puts.map Prod.fst := by simpa using h
    rw [setTexts, setText, if_neg hne, ih hrest]

/-- At different paths, each path gets its string. -/
lemma setTexts_of_mem {puts : List (List String × String)} (hnodup : (puts.map Prod.fst).Nodup)
    {path : List String} {content : String} (h : (path, content) ∈ puts) (text : String) :
    setTexts puts path text = content := by
  induction puts generalizing text with
  | nil => simp at h
  | cons put puts ih =>
    obtain ⟨hhead, htail⟩ := List.nodup_cons.mp hnodup
    rcases List.mem_cons.mp h with rfl | hmem
    · rw [setTexts, setText, if_pos rfl, setTexts_of_notMem hhead]
    · exact ih htail hmem _

end Rupi
