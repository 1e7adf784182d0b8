import Rupi.Core.Decode
import Rupi.Core.Redact
import Rupi.Lib.Ascent
import Rupi.Lib.Fallible

/-!
A Pi session file: its header line, its entries, and the path through their tree.

- `PiImport.parse`: the file, line by line; a damaged line is skipped and named.
- `PiSession.activePath`: the walk from the newest entry to a root, or the whole file
  when an entry has no id.
- `PiSession.offPath`: the entries that are not on it.
- **`activePath_ok`**, `activePath_duplicateId_iff`, `activePath_danglingParent_iff`,
  `activePath_cycle_iff`: what the walk returns, and each of its refusals.
-/

namespace Rupi

open Value Fallible

/-- The first line of a file. -/
structure PiHeader where
  version : Nat
  id : String
  cwd : String
  timestamp : String
  parentSession : Option String
  deriving DecidableEq

/-- One entry line, as raw JSON with the fields every entry shares. -/
structure PiEntry where
  line : Nat
  id : String
  parent : Option String
  entryType : String
  value : Value
  deriving DecidableEq

structure PiSession where
  path : String
  header : PiHeader
  entries : List PiEntry
  damagedLines : List String
  deriving DecidableEq

/-- Why an import could not proceed at all. -/
inductive PiImportError where
  | unreadable (path reason : String)
  | missingHeader (path reason : String)
  | duplicateId (id : String)
  | danglingParent (id parent : String)
  | cycle (id : String)
  deriving DecidableEq

/-! ### Reading a file -/

def stringField (value : Value) (key : String) : Option String := (value.get key).bind asText

def numberField (value : Value) (key : String) : Option Nat := (value.get key).bind asNat

/-- The file as far as it has been read. -/
structure PiReading where
  header : Option PiHeader
  entries : List PiEntry
  damagedLines : List String

def PiHeader.ofValue (value : Value) : PiHeader where
  version := (numberField value "version").getD 1 % 2 ^ 32
  id := (stringField value "id").getD ""
  cwd := (stringField value "cwd").getD ""
  timestamp := (stringField value "timestamp").getD ""
  parentSession := stringField value "parentSession"

def PiEntry.ofValue (line : Nat) (value : Value) : PiEntry where
  line := line
  -- no fallback id: an empty one is how a version 1 file says that it has no tree
  id := (stringField value "id").getD ""
  parent := stringField value "parentId"
  entryType := (stringField value "type").getD ""
  value := value

def isObject : Value → Bool
  | object _ => true
  | _ => false

/-- One line of the file, with its number. -/
def readPiLine (fromStr : String → Except String Value) (path : String) (s : PiReading)
    (line : String × Nat) : Except PiImportError PiReading :=
  if trim line.1 = "" then .ok s
  else
    match fromStr line.1 with
    | .error error =>
      .ok { s with damagedLines := s.damagedLines ++
              ["line " ++ toString line.2 ++ ": " ++ error ++ ", skipped"] }
    | .ok value =>
      if isObject value then
        match s.header with
        | none =>
          let entryType := (stringField value "type").getD ""
          if entryType = "session" then .ok { s with header := some (PiHeader.ofValue value) }
          else .error (.missingHeader path ("the first line is type '" ++ entryType ++
            "'; a Pi session starts with type 'session'"))
        | some _ => .ok { s with entries := s.entries ++ [PiEntry.ofValue line.2 value] }
      else
        .ok { s with damagedLines := s.damagedLines ++
                ["line " ++ toString line.2 ++ ": not a JSON object, skipped"] }

/-- `pi_import::parse`: a file that has been read, `fromStr` being the JSON reader. -/
def PiImport.parse (fromStr : String → Except String Value) (path text : String) :
    Except PiImportError PiSession := do
  let s ← scan (readPiLine fromStr path) ⟨none, [], []⟩ ((textLines text).zipIdx 1)
  match s.header with
  | none => .error (.missingHeader path "no session header line")
  | some header => .ok ⟨path, header, s.entries, s.damagedLines⟩

/-- The text of a file of these lines. -/
def PiImport.fileOf (values : List Value) : String :=
  "\n".intercalate (values.map fun value => String.ofList value.print)

/-- A JSON reader, as far as it knows these lines. -/
def PiImport.readerOf (values : List Value) (line : String) : Except String Value :=
  match values.find? fun value => String.ofList value.print == line with
  | some value => .ok value
  | none => .error "expected value"

/-! ### The entry tree -/

/-- The smallest id that occurs twice. -/
def duplicateOf (ids : List String) : Option String :=
  ((ids.filter fun id => 1 < ids.count id).mergeSort fun a b => decide (a ≤ b)).head?

namespace PiSession

/-- The path from a root down to the newest entry. -/
def activePath (source : PiSession) : Except PiImportError (List PiEntry) :=
  match _h : source.entries.getLast? with
  | none => .ok []
  | some leaf =>
    if source.entries.any fun entry => entry.id == "" then .ok source.entries
    else
      match duplicateOf (source.entries.map PiEntry.id) with
      | some id => .error (.duplicateId id)
      | none =>
        match Ascent.ascend PiEntry.id PiEntry.parent source.entries [] leaf
            (List.mem_of_getLast? _h) with
        | .root path => .ok path
        | .dangling entry parent => .error (.danglingParent entry.id parent)
        | .cycle entry => .error (.cycle entry.id)

/-- The entries whose id is not on the path. -/
def offPath (source : PiSession) (active : List PiEntry) : List PiEntry :=
  source.entries.filter fun entry => entry.id ∉ active.map PiEntry.id

/-! ### What the path is -/

/-- Some entry has no id, so the file has no tree and is read in its order. -/
def IsLinear (source : PiSession) : Prop := ∃ entry ∈ source.entries, entry.id = ""

/-- No two entries share an id. -/
def HasDistinctIds (source : PiSession) : Prop := Keyed.Distinct PiEntry.id source.entries

/-- `b` is the entry that `a` names as its parent. -/
def ParentOf (source : PiSession) (a b : PiEntry) : Prop :=
  Ascent.Link PiEntry.id PiEntry.parent source.entries a b

/-- `a` is the newest entry or one above it. -/
def Above (source : PiSession) (a : PiEntry) : Prop :=
  ∃ leaf ∈ source.entries.getLast?, Relation.ReflTransGen source.ParentOf leaf a

end PiSession

lemma duplicateOf_eq_none {ids : List String} : duplicateOf ids = none ↔ ids.Nodup := by
  rw [duplicateOf, List.head?_eq_none_iff, ← List.length_eq_zero_iff, List.length_mergeSort,
    List.length_eq_zero_iff, List.filter_eq_nil_iff, List.nodup_iff_count_le_one]
  constructor
  · intro h id
    by_cases hid : id ∈ ids
    · simpa using h id hid
    · rw [List.count_eq_zero_of_not_mem hid]
      exact Nat.zero_le 1
  · intro h id _
    simpa using h id

lemma one_lt_count_of_duplicateOf {ids : List String} {id : String}
    (h : duplicateOf ids = some id) : 1 < ids.count id := by
  have hmem := List.mem_mergeSort.mp (List.mem_of_head? h)
  simpa using (List.mem_filter.mp hmem).2

namespace PiSession

variable {source : PiSession}

/-- Without an entry that lacks an id the walk is the answer. -/
lemma activePath_of_tree {leaf : PiEntry} (hleaf : source.entries.getLast? = some leaf)
    (hlinear : ¬source.IsLinear) (hdistinct : source.HasDistinctIds) :
    source.activePath =
      match Ascent.ascend PiEntry.id PiEntry.parent source.entries [] leaf
          (List.mem_of_getLast? hleaf) with
      | .root path => .ok path
      | .dangling entry parent => .error (.danglingParent entry.id parent)
      | .cycle entry => .error (.cycle entry.id) := by
  have hids : ¬source.entries.any (fun entry => entry.id == "") = true := by
    intro hany
    obtain ⟨entry, hentry, hid⟩ := List.any_eq_true.mp hany
    exact hlinear ⟨entry, hentry, by simpa using hid⟩
  unfold activePath
  split
  · simp_all
  · rename_i other hother
    obtain rfl := Option.some.inj (hleaf.symm.trans hother)
    rw [if_neg hids, duplicateOf_eq_none.mpr hdistinct]

/-- A file in which some entry has no id is read as it stands. -/
lemma activePath_of_linear (hlinear : source.IsLinear) : source.activePath = .ok source.entries := by
  obtain ⟨entry, hentry, hid⟩ := hlinear
  have hany : source.entries.any (fun entry => entry.id == "") = true :=
    List.any_eq_true.mpr ⟨entry, hentry, by simpa using hid⟩
  unfold activePath
  split
  · rename_i hnil
    rw [List.getLast?_eq_none_iff.mp hnil]
  · rw [if_pos hany]

lemma activePath_of_empty (h : source.entries = []) : source.activePath = .ok [] := by
  have hlast : source.entries.getLast? = none := by rw [h, List.getLast?_nil]
  unfold activePath
  split
  · rfl
  · rename_i leaf hleaf
    exact absurd (hlast.symm.trans hleaf) (by simp)

/-- Ids that occur twice are refused whatever the links are. -/
lemma activePath_of_duplicate (hlinear : ¬source.IsLinear)
    (hdup : ¬source.HasDistinctIds) :
    ∃ id, source.activePath = .error (.duplicateId id) ∧
      1 < (source.entries.map PiEntry.id).count id := by
  have hids : ¬source.entries.any (fun entry => entry.id == "") = true := by
    intro hany
    obtain ⟨entry, hentry, hid⟩ := List.any_eq_true.mp hany
    exact hlinear ⟨entry, hentry, by simpa using hid⟩
  cases hfirst : duplicateOf (source.entries.map PiEntry.id) with
  | none => exact absurd (duplicateOf_eq_none.mp hfirst) hdup
  | some id =>
    refine ⟨id, ?_, one_lt_count_of_duplicateOf hfirst⟩
    unfold activePath
    split
    · rename_i hnil
      rw [List.getLast?_eq_none_iff.mp hnil] at hfirst
      simp [duplicateOf] at hfirst
    · rw [if_neg hids, hfirst]

/-- The chain from a root down to the newest entry, no entry repeated. -/
structure IsChain (source : PiSession) (path : List PiEntry) : Prop where
  links : path.IsChain fun a b => source.ParentOf b a
  nodup : (path.map PiEntry.id).Nodup
  mem : ∀ entry ∈ path, entry ∈ source.entries
  leaf : path.getLast? = source.entries.getLast?
  root : ∃ root ∈ path.head?, root.parent = none

/-- How the walk from the newest entry of a tree ends. -/
lemma exists_ending {leaf : PiEntry} (hleaf : source.entries.getLast? = some leaf)
    (hlinear : ¬source.IsLinear) (hdistinct : source.HasDistinctIds) :
    ∃ ending, Ascent.EndsAt PiEntry.id PiEntry.parent source.entries leaf ending ∧
      source.activePath =
        match ending with
        | .root path => .ok path
        | .dangling entry parent => .error (.danglingParent entry.id parent)
        | .cycle entry => .error (.cycle entry.id) :=
  ⟨_, Ascent.ascend_spec (List.mem_of_getLast? hleaf) hdistinct,
    activePath_of_tree hleaf hlinear hdistinct⟩

/-- **What the walk returns**: the file as it stands when an entry has no id, else the
chain from a root down to the newest entry. -/
theorem activePath_ok {path : List PiEntry} (h : source.activePath = .ok path) :
    path = source.entries ∧ (source.IsLinear ∨ source.entries = []) ∨ source.IsChain path := by
  by_cases hlinear : source.IsLinear
  · rw [activePath_of_linear hlinear] at h
    exact .inl ⟨(Except.ok.inj h).symm, .inl hlinear⟩
  · cases hleaf : source.entries.getLast? with
    | none =>
      have hnil := List.getLast?_eq_none_iff.mp hleaf
      rw [activePath_of_empty hnil] at h
      exact .inl ⟨by rw [hnil, Except.ok.inj h], .inr hnil⟩
    | some leaf =>
      by_cases hdistinct : source.HasDistinctIds
      · obtain ⟨ending, hends, hpath⟩ := exists_ending hleaf hlinear hdistinct
        rw [h] at hpath
        cases ending with
        | root climbed =>
          obtain rfl := Except.ok.inj hpath
          obtain ⟨hlinks, hnodup, hmem, hlast, root, hroot, hnone, -⟩ := hends
          exact .inr ⟨hlinks, hnodup, hmem, hlast.trans hleaf.symm, root, hroot, hnone⟩
        | dangling entry parent => exact absurd hpath (by simp)
        | cycle entry => exact absurd hpath (by simp)
      · obtain ⟨id, hdup, -⟩ := activePath_of_duplicate hlinear hdistinct
        exact absurd (hdup.symm.trans h) (by simp)

/-- A refused file has a newest entry, and every entry has an id. -/
lemma tree_of_error {e : PiImportError} (h : source.activePath = .error e) :
    (∃ leaf, source.entries.getLast? = some leaf) ∧ ¬source.IsLinear := by
  refine ⟨?_, fun hlinear => ?_⟩
  · cases hleaf : source.entries.getLast? with
    | none =>
      rw [activePath_of_empty (List.getLast?_eq_none_iff.mp hleaf)] at h
      exact absurd h (by simp)
    | some leaf => exact ⟨leaf, rfl⟩
  · rw [activePath_of_linear hlinear] at h
    exact absurd h (by simp)

/-- **A shared id is reported** exactly when a file in which every entry has an id has
two entries of one id. -/
theorem activePath_duplicateId_iff :
    (∃ id, source.activePath = .error (.duplicateId id)) ↔
      ¬source.IsLinear ∧ ¬source.HasDistinctIds := by
  constructor
  · rintro ⟨id, h⟩
    obtain ⟨⟨leaf, hleaf⟩, hlinear⟩ := tree_of_error h
    refine ⟨hlinear, fun hdistinct => ?_⟩
    obtain ⟨ending, -, hpath⟩ := exists_ending hleaf hlinear hdistinct
    rw [h] at hpath
    cases ending <;> exact absurd hpath (by simp)
  · rintro ⟨hlinear, hdup⟩
    obtain ⟨id, h, -⟩ := activePath_of_duplicate hlinear hdup
    exact ⟨id, h⟩

/-- **A missing parent is reported** exactly when the walk comes to an entry that names it. -/
theorem activePath_danglingParent_iff {id parent : String} :
    source.activePath = .error (.danglingParent id parent) ↔
      ¬source.IsLinear ∧ source.HasDistinctIds ∧
        ∃ entry, source.Above entry ∧ entry.id = id ∧ entry.parent = some parent ∧
          ∀ other ∈ source.entries, other.id ≠ parent := by
  constructor
  · intro h
    obtain ⟨⟨leaf, hleaf⟩, hlinear⟩ := tree_of_error h
    have hdistinct : source.HasDistinctIds := by
      by_contra hdup
      obtain ⟨id', h', -⟩ := activePath_of_duplicate hlinear hdup
      exact absurd (h.symm.trans h') (by simp)
    refine ⟨hlinear, hdistinct, ?_⟩
    obtain ⟨ending, hends, hpath⟩ := exists_ending hleaf hlinear hdistinct
    rw [h] at hpath
    cases ending with
    | root path => exact absurd hpath (by simp)
    | dangling entry k =>
      obtain ⟨rfl, rfl⟩ : id = entry.id ∧ parent = k := by simpa using hpath
      obtain ⟨hreach, hk, hmissing⟩ := hends
      exact ⟨entry, ⟨leaf, hleaf, hreach⟩, rfl, hk, Keyed.lookup_eq_none.mp hmissing⟩
    | cycle entry => exact absurd hpath (by simp)
  · rintro ⟨hlinear, hdistinct, entry, ⟨leaf, hleaf, hreach⟩, rfl, hk, hmissing⟩
    have hend := (Ascent.ascend_dangling_iff (List.mem_of_getLast? hleaf) hdistinct).mpr
      ⟨hreach, hk, Keyed.lookup_eq_none.mpr hmissing⟩
    rw [activePath_of_tree hleaf hlinear hdistinct, hend]

/-- **A cycle is reported** exactly when the walk leads into one. -/
theorem activePath_cycle_iff :
    (∃ id, source.activePath = .error (.cycle id)) ↔
      ¬source.IsLinear ∧ source.HasDistinctIds ∧
        ∃ entry, source.Above entry ∧ Relation.TransGen source.ParentOf entry entry := by
  constructor
  · rintro ⟨id, h⟩
    obtain ⟨⟨leaf, hleaf⟩, hlinear⟩ := tree_of_error h
    have hdistinct : source.HasDistinctIds := by
      by_contra hdup
      obtain ⟨id', h', -⟩ := activePath_of_duplicate hlinear hdup
      exact absurd (h.symm.trans h') (by simp)
    refine ⟨hlinear, hdistinct, ?_⟩
    obtain ⟨ending, hends, hpath⟩ := exists_ending hleaf hlinear hdistinct
    rw [h] at hpath
    cases ending with
    | root path => exact absurd hpath (by simp)
    | dangling entry k => exact absurd hpath (by simp)
    | cycle entry => exact ⟨entry, ⟨leaf, hleaf, hends.1⟩, hends.2⟩
  · rintro ⟨hlinear, hdistinct, entry, ⟨leaf, hleaf, hreach⟩, hcycle⟩
    obtain ⟨other, hend⟩ := (Ascent.ascend_cycle_iff (List.mem_of_getLast? hleaf) hdistinct).mpr
      ⟨entry, hreach, hcycle⟩
    exact ⟨other.id, by rw [activePath_of_tree hleaf hlinear hdistinct, hend]⟩

end PiSession

/-- What the walk does: it returns the chain, or the file as it stands when an entry has
no id, and refuses exactly the three defects. -/
structure PiSession.PathSpec (source : PiSession) : Prop where
  ok : ∀ path, source.activePath = .ok path →
    path = source.entries ∧ (source.IsLinear ∨ source.entries = []) ∨ source.IsChain path
  duplicateId : (∃ id, source.activePath = .error (.duplicateId id)) ↔
    ¬source.IsLinear ∧ ¬source.HasDistinctIds
  danglingParent : ∀ id parent, source.activePath = .error (.danglingParent id parent) ↔
    ¬source.IsLinear ∧ source.HasDistinctIds ∧
      ∃ entry, source.Above entry ∧ entry.id = id ∧ entry.parent = some parent ∧
        ∀ other ∈ source.entries, other.id ≠ parent
  cycle : (∃ id, source.activePath = .error (.cycle id)) ↔
    ¬source.IsLinear ∧ source.HasDistinctIds ∧
      ∃ entry, source.Above entry ∧ Relation.TransGen source.ParentOf entry entry

lemma PiSession.pathSpec (source : PiSession) : source.PathSpec :=
  ⟨fun _ => activePath_ok, activePath_duplicateId_iff, fun _ _ => activePath_danglingParent_iff,
    activePath_cycle_iff⟩

/-! ### Lines of the entries -/

namespace PiImport

variable {fromStr : String → Except String Value} {name : String}

/-- A line adds at most one entry, under its number. -/
lemma readPiLine_entries {s s' : PiReading} {line : String × Nat}
    (h : readPiLine fromStr name s line = .ok s') :
    s'.entries = s.entries ∨ ∃ value, s'.entries = s.entries ++ [PiEntry.ofValue line.2 value] := by
  rw [readPiLine] at h
  split_ifs at h with hblank
  · exact .inl (congrArg PiReading.entries (Except.ok.inj h)).symm
  · split at h
    · exact .inl (congrArg PiReading.entries (Except.ok.inj h)).symm
    · rename_i value hvalue
      split_ifs at h with hobject
      · split at h
        · dsimp only at h
          split_ifs at h with hsession
          exact .inl (congrArg PiReading.entries (Except.ok.inj h)).symm
        · exact .inr ⟨value, (congrArg PiReading.entries (Except.ok.inj h)).symm⟩
      · exact .inl (congrArg PiReading.entries (Except.ok.inj h)).symm

lemma nodup_lines_of_scan {lines : List String} {n : Nat} {s t : PiReading}
    (hs : (s.entries.map PiEntry.line).Nodup) (hlt : ∀ entry ∈ s.entries, entry.line < n)
    (h : scan (readPiLine fromStr name) s (lines.zipIdx n) = .ok t) :
    (t.entries.map PiEntry.line).Nodup := by
  induction lines generalizing n s with
  | nil =>
    obtain rfl := Except.ok.inj h
    exact hs
  | cons line lines ih =>
    obtain ⟨s', hread, hrest⟩ := bind_eq_ok.mp h
    have hlt' : ∀ entry ∈ s.entries, entry.line < n + 1 :=
      fun entry hentry => Nat.lt_succ_of_lt (hlt entry hentry)
    rcases readPiLine_entries hread with hsame | ⟨value, hmore⟩
    · exact ih (hsame ▸ hs) (hsame ▸ hlt') hrest
    · refine ih ?_ ?_ hrest
      · rw [hmore, List.map_append, List.nodup_append]
        refine ⟨hs, List.nodup_singleton _, ?_⟩
        rintro a ha b hb rfl
        obtain ⟨entry, hentry, rfl⟩ := List.mem_map.mp ha
        have hline : entry.line = n := List.mem_singleton.mp hb
        exact absurd hline (Nat.ne_of_lt (hlt entry hentry))
      · rw [hmore]
        intro entry hentry
        rcases List.mem_append.mp hentry with hentry | hentry
        · exact hlt' entry hentry
        · rw [List.mem_singleton.mp hentry]
          exact Nat.lt_succ_self n

/-- The entries of a file stand on different lines. -/
theorem nodup_lines_of_parse {text : String} {source : PiSession}
    (h : parse fromStr name text = .ok source) : (source.entries.map PiEntry.line).Nodup := by
  obtain ⟨s, hscan, hheader⟩ := bind_eq_ok.mp h
  have hlines : (s.entries.map PiEntry.line).Nodup :=
    nodup_lines_of_scan (by exact List.nodup_nil) (by simp) hscan
  cases hs : s.header with
  | none =>
    rw [hs] at hheader
    exact absurd hheader (by simp)
  | some header =>
    rw [hs] at hheader
    obtain rfl := Except.ok.inj hheader
    exact hlines

end PiImport

/-- So do the entries of its path. -/
lemma PiSession.nodup_lines_of_activePath {source : PiSession} {path : List PiEntry}
    (hlines : (source.entries.map PiEntry.line).Nodup) (h : source.activePath = .ok path) :
    (path.map PiEntry.line).Nodup := by
  rcases activePath_ok h with ⟨rfl, -⟩ | hchain
  · exact hlines
  · refine List.Nodup.map_on (fun a ha b hb => ?_) (List.Nodup.of_map _ hchain.nodup)
    exact fun heq => List.inj_on_of_nodup_map hlines (hchain.mem a ha) (hchain.mem b hb) heq

/-! ### Fields of an entry -/

namespace PiEntry

def str (entry : PiEntry) (key : String) : Option String := stringField entry.value key

def num (entry : PiEntry) (key : String) : Option Nat := numberField entry.value key

/-- A field of the nested `message`. -/
def messageValue (entry : PiEntry) (key : String) : Option Value :=
  (entry.value.get "message").bind fun message => message.get key

/-- A message's role, which may stand at the top of an older entry. -/
def messageRole (entry : PiEntry) : Option String :=
  ((entry.messageValue "role").bind asText).or (entry.str "role")

def messageField (entry : PiEntry) (key : String) : Option String :=
  (entry.messageValue key).bind asText

/-- `str::parse::<bool>`. -/
def boolOfText (text : String) : Option Bool :=
  if text = "true" then some true else if text = "false" then some false else none

def messageFlag (entry : PiEntry) (key : String) : Bool :=
  ((entry.messageValue key).bind fun value =>
    (asBool value).or ((asText value).bind boolOfText)).getD false

def asArray : Value → Option (List Value)
  | array items => some items
  | _ => none

def messageFieldArray (entry : PiEntry) (key : String) : Option (List Value) :=
  (entry.messageValue key).bind asArray

def messageFieldObject (entry : PiEntry) (key : String) : Option Value :=
  (entry.messageValue key).filter isObject

/-- A top-level array. -/
def arr (entry : PiEntry) (key : String) : Option (List Value) := (entry.value.get key).bind asArray

end PiEntry

end Rupi
