import Rupi.Core.Encode
import Mathlib.Data.List.Sort

/-!
Keeping one trace line inside its inline budget.

`bound` stores the largest string fields of a line in content-addressed storage
and leaves a bounded preview behind. The fields of the envelope and identity-shaped
fields are never spilled.

- `get_bound`: a root field of the envelope survives bounding as it was.
-/

namespace Rupi

/-! ### Blob references -/

/-- `BlobRef::is_well_formed`. -/
def BlobRef.isWellFormed (blob : BlobRef) : Bool :=
  decide (blob.hash.utf8ByteSize = 64) &&
    blob.hash.toList.all fun c =>
      c.isDigit || (decide ('a' ≤ c) && decide (c ≤ 'f')) || (decide ('A' ≤ c) && decide (c ≤ 'F'))

/-- `BlobRef::relative_path`. -/
def BlobRef.relativePath (blob : BlobRef) : String :=
  if blob.isWellFormed then
    let suffix := match blob.compression with
      | .none => ""
      | .deflate => ".deflate"
    "blobs/" ++ String.ofList (blob.hash.toList.take 2) ++ "/" ++ blob.hash ++ suffix
  else "blobs/invalid/invalid"

/-! ### Bounding a line -/

/-- What bounding needs of the blob store: the reference of some bytes, which is
derived from the bytes alone, and the write. -/
structure BlobStore where
  referenceFor : String → Except StoreError String
  put : String → Except StoreError Unit

namespace Payload

/-- Bytes of a spilled value that stay inline. -/
def previewBytes : Nat := 256

/-- Spills to attempt before giving up on a line. -/
def maxSpillsPerLine : Nat := 32

/-- Root fields whose whole subtree must survive intact. -/
def envelopeFields : List String :=
  ["v", "meta", "type", "redactions", "raw_payload", "raw_ref", "externalized", "blob"]

/-- Leading bytes of a value, cut at a character boundary. -/
def takeBytes : Nat → List Char → List Char
  | _, [] => []
  | n, c :: text => if c.utf8Size ≤ n then c :: takeBytes (n - c.utf8Size) text else []

def preview (text : String) : String := String.ofList (takeBytes previewBytes text.toList)

mutual

/-- Every string leaf with its path, however deeply nested. -/
def collect (path : List String) : Value → List (Nat × List String)
  | .object fields => collectFields path fields
  | .array items => collectItems path 0 items
  | .string text => [(text.utf8ByteSize, path)]
  | _ => []

def collectFields (path : List String) : List (String × Value) → List (Nat × List String)
  | [] => []
  | (key, value) :: fields => collect (path ++ [key]) value ++ collectFields path fields

def collectItems (path : List String) (index : Nat) : List Value → List (Nat × List String)
  | [] => []
  | value :: items =>
    collect (path ++ [index.repr]) value ++ collectItems path (index + 1) items

end

/-- Leaf names that identify something rather than describe it. -/
def isPointer (field : String) : Bool :=
  field == "type" || field == "id" || field == "hash" || field == "reference" ||
    "_id".toList.isSuffixOf field.toList || "_ref".toList.isSuffixOf field.toList

/-- Whether this path may have its bytes stored out of the line. -/
def spills (path : List String) : Bool :=
  match path with
  | [] => false
  | first :: _ => !envelopeFields.contains first && !(path.getLast?.any isPointer)

/-- `path.join("/")`. -/
def joinPath (path : List String) : String := "/".intercalate path

/-- The order of paths, segment by segment. -/
def pathLe : List String → List String → Bool
  | [], _ => true
  | _ :: _, [] => false
  | a :: as, b :: bs => decide (a < b) || (a == b && pathLe as bs)

/-- The largest spillable string leaf; ties break on the path. -/
def largestCandidate (line : Value) (done : List String) : Option (List String) :=
  let found := (collect [] line).filter fun leaf =>
    spills leaf.2 && !done.contains (joinPath leaf.2)
  ((found.insertionSort fun a b => b.1 < a.1 ∨ a.1 = b.1 ∧ pathLe a.2 b.2).head?).map (·.2)

/-- Digits without the sign that `str::parse` accepts before them. -/
def dropSign : List Char → List Char
  | '+' :: digits => digits
  | digits => digits

/-- `str::parse::<usize>` of a path segment: an array index. -/
def parseIndex (segment : String) : Option Nat :=
  let digits := dropSign segment.toList
  if !digits.isEmpty && digits.all Char.isDigit then some (Nat.ofDigitChars 10 digits 0) else none

/-- The value at a path, if it is still there. -/
def lookup : List String → Value → Option Value
  | [], line => some line
  | segment :: rest, line =>
    match line with
    | .object fields => ((Value.object fields).get segment).bind (lookup rest)
    | .array items => (parseIndex segment).bind fun index => items[index]?.bind (lookup rest)
    | _ => none

def updateField (key : String) (f : Value → Option Value) :
    List (String × Value) → Option (List (String × Value))
  | [] => none
  | (k, value) :: fields =>
    if k = key then (f value).map fun value => (k, value) :: fields
    else (updateField key f fields).map ((k, value) :: ·)

def updateItem (index : Nat) (f : Value → Option Value) : List Value → Option (List Value)
  | [] => none
  | value :: items =>
    match index with
    | 0 => (f value).map (· :: items)
    | index + 1 => (updateItem index f items).map (value :: ·)

/-- Replace the string at a path. `none` when the path no longer resolves to one. -/
def replace (text : String) : List String → Value → Option Value
  | [], _ => none
  | segment :: rest, line =>
    let inner (child : Value) : Option Value :=
      match rest, child with
      | [], .string _ => some (.string text)
      | [], _ => none
      | _ :: _, child => replace text rest child
    match line with
    | .object fields => (updateField segment inner fields).map .object
    | .array items =>
      (parseIndex segment).bind fun index => (updateItem index inner items).map .array
    | _ => none

/-- What stays in the line of a spilled value. -/
def keptText (text reference : String) : String :=
  preview text ++ "… [stored " ++ text.utf8ByteSize.repr ++ " bytes in " ++ reference ++ ", " ++
    (preview text).utf8ByteSize.repr ++ " bytes shown]"

/-- The spilling loop of `bound`, with the spills that are left. -/
def boundLoop (blobs : BlobStore) (budget : Nat) (measure : Value → Nat) :
    Nat → Value → List ExternalizedField → Except StoreError (Value × List ExternalizedField)
  | 0, line, spilled => .ok (line, spilled)
  | spills + 1, line, spilled =>
    if measure line ≤ budget then .ok (line, spilled)
    else
      match largestCandidate line (spilled.map (·.field)) with
      | none => .ok (line, spilled)
      | some path =>
        match lookup path line with
        | some (.string text) => do
          let reference ← blobs.referenceFor text
          let kept := keptText text reference
          if text.utf8ByteSize ≤ kept.utf8ByteSize then .ok (line, spilled)
          else
            match replace kept path line with
            | none => .ok (line, spilled)
            | some line => do
              blobs.put text
              boundLoop blobs budget measure spills line
                (spilled ++
                  [⟨joinPath path, reference, text.utf8ByteSize, kept.utf8ByteSize⟩])
        | _ => .ok (line, spilled)

/-- Bound a line to `budget` bytes, storing whole fields in `blobs`. -/
def bound (line : Value) (blobs : BlobStore) (budget : Nat) (measure : Value → Nat) :
    Except StoreError (Value × List ExternalizedField) :=
  boundLoop blobs budget measure maxSpillsPerLine line []

/-! ### What bounding leaves alone -/

lemma find?_updateField_ne {key other : String} (hne : other ≠ key) {f : Value → Option Value}
    {fields fields' : List (String × Value)} (h : updateField key f fields = some fields') :
    fields'.find? (fun field => field.1 == other) =
      fields.find? fun field => field.1 == other := by
  induction fields generalizing fields' with
  | nil => simp [updateField] at h
  | cons field fields ih =>
    obtain ⟨k, value⟩ := field
    by_cases hk : k = key
    · subst hk
      simp only [updateField, if_true] at h
      obtain ⟨value', -, rfl⟩ := Option.map_eq_some_iff.mp h
      simp [Ne.symm hne]
    · simp only [updateField, hk, if_false] at h
      obtain ⟨rest, hrest, rfl⟩ := Option.map_eq_some_iff.mp h
      simp [List.find?_cons, ih hrest]

/-- A replacement below one root field leaves the other root fields alone. -/
lemma get_replace {text segment : String} {rest : List String} {line line' : Value}
    (h : replace text (segment :: rest) line = some line') {key : String}
    (hkey : key ≠ segment) : line'.get key = line.get key := by
  cases line with
  | object fields =>
    obtain ⟨fields', hfields, rfl⟩ := Option.map_eq_some_iff.mp h
    simp [Value.get, find?_updateField_ne hkey hfields]
  | array items =>
    obtain ⟨index, -, hitems⟩ := Option.bind_eq_some_iff.mp h
    obtain ⟨items', -, rfl⟩ := Option.map_eq_some_iff.mp hitems
    rfl
  | _ => simp [replace] at h

/-- A candidate lies below a root field that is not the envelope's. -/
lemma largestCandidate_root {line : Value} {done path : List String}
    (h : largestCandidate line done = some path) :
    ∃ first rest, path = first :: rest ∧ first ∉ envelopeFields := by
  obtain ⟨leaf, hleaf, rfl⟩ := Option.map_eq_some_iff.mp h
  have hmem := List.mem_of_mem_head? (Option.mem_def.mpr hleaf)
  rw [List.mem_insertionSort, List.mem_filter, Bool.and_eq_true] at hmem
  have hspills := hmem.2.1
  cases hpath : leaf.2 with
  | nil => simp [spills, hpath] at hspills
  | cons first rest =>
    rw [hpath, spills, Bool.and_eq_true] at hspills
    exact ⟨first, rest, rfl, by simpa using hspills.1⟩

lemma get_boundLoop {blobs : BlobStore} {budget : Nat} {measure : Value → Nat} {n : Nat}
    {line line' : Value} {spilled spilled' : List ExternalizedField}
    (h : boundLoop blobs budget measure n line spilled = .ok (line', spilled')) {key : String}
    (hkey : key ∈ envelopeFields) : line'.get key = line.get key := by
  induction n generalizing line spilled with
  | zero =>
    obtain ⟨rfl, rfl⟩ := Prod.mk.inj (Except.ok.inj h)
    rfl
  | succ n ih =>
    have hdone : ∀ {l : Value} {s : List ExternalizedField},
        (Except.ok (line, spilled) : Except StoreError _) = .ok (l, s) →
          l.get key = line.get key := by
      intro l s hok
      obtain ⟨rfl, -⟩ := Prod.mk.inj (Except.ok.inj hok)
      rfl
    unfold boundLoop at h
    split at h
    · exact hdone h
    · split at h
      · exact hdone h
      · rename_i path hpath
        obtain ⟨first, rest, rfl, hfirst⟩ := largestCandidate_root hpath
        split at h
        · rename_i text _
          cases href : blobs.referenceFor text with
          | error e => simp [href, bind, Except.bind] at h
          | ok reference =>
            simp only [href, bind, Except.bind] at h
            split at h
            · exact hdone h
            · split at h
              · exact hdone h
              · rename_i replaced hreplaced
                cases hput : blobs.put text with
                | error e => simp [hput] at h
                | ok u =>
                  simp only [hput] at h
                  have hne : key ≠ first := fun heq => hfirst (heq ▸ hkey)
                  rw [ih h, get_replace hreplaced hne]
        · exact hdone h

/-- Bounding leaves the root fields of the envelope as they were. -/
theorem get_bound {line line' : Value} {blobs : BlobStore} {budget : Nat}
    {measure : Value → Nat} {spilled : List ExternalizedField}
    (h : bound line blobs budget measure = .ok (line', spilled)) {key : String}
    (hkey : key ∈ envelopeFields) : line'.get key = line.get key :=
  get_boundLoop h hkey

end Payload

end Rupi
