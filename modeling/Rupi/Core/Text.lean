import Mathlib.Tactic
import Mathlib.Data.List.DropRight
import Mathlib.Data.List.TakeWhile

/-!
Text as lists of characters, with the standard-library operations the source
uses on `&str`.

- `isWhitespace`, `trim`: the Unicode `White_Space` property and `str::trim`.
- `containsText`: the substring test.
- `splitOnce`, `rsplitOnce`, `stripFront`: a text divided at a character or behind a front.
- `IsTrimmed`: text that trimming leaves as it is; `trimChars_idem`.
-/

namespace Rupi

section Members

variable {α : Type*} {p : α → Prop} [DecidablePred p]

/-- What is asked of the members of a list is decided on them, not on the whole of a finite type. -/
instance (priority := 2000) decidableForallMem (items : List α) : Decidable (∀ a ∈ items, p a) :=
  List.decidableBAll p items

instance (priority := 2000) decidableExistsMem (items : List α) : Decidable (∃ a ∈ items, p a) :=
  List.decidableBEx p items

instance (priority := 2000) decidableForallMemOption (item : Option α) :
    Decidable (∀ a ∈ item, p a) := Option.decidableForallMem item

end Members

/-- `char::is_whitespace`: the Unicode `White_Space` property. -/
def isWhitespace (c : Char) : Bool :=
  let n := c.toNat
  (9 ≤ n && n ≤ 13) || n == 0x20 || n == 0x85 || n == 0xA0 || n == 0x1680 ||
    (0x2000 ≤ n && n ≤ 0x200A) || n == 0x2028 || n == 0x2029 || n == 0x202F ||
    n == 0x205F || n == 0x3000

/-- `str::trim`. -/
def trimChars (text : List Char) : List Char :=
  ((text.dropWhile isWhitespace).reverse.dropWhile isWhitespace).reverse

/-- `str::trim` on a string. -/
def trim (text : String) : String := String.ofList (trimChars text.toList)

/-- `trim_end_matches(['\n', '\r'])`. -/
def trimLineEnd (text : List Char) : List Char :=
  text.rdropWhile fun c => c = '\n' || c = '\r'

/-- `str::contains` for a substring. -/
def containsText (needle : List Char) : List Char → Bool
  | [] => needle.isEmpty
  | c :: text => needle.isPrefixOf (c :: text) || containsText needle text

/-- `str::contains` for a substring is the occurrence of a word. -/
lemma containsText_iff {needle text : List Char} :
    containsText needle text = true ↔ needle <:+: text := by
  induction text with
  | nil => simp [containsText]
  | cons c text ih => simp [containsText, ih, List.infix_cons_iff]

/-! ### Trimmed text -/

/-- Nothing to trim, and something left. -/
def IsTrimmed (text : String) : Prop := trimChars text.toList = text.toList ∧ text ≠ ""

lemma trimChars_eq (text : List Char) :
    trimChars text = (text.dropWhile isWhitespace).rdropWhile isWhitespace := rfl

/-- What the front leaves is not blank at the front, whatever the back loses. -/
lemma dropWhile_trimChars (text : List Char) :
    (trimChars text).dropWhile isWhitespace = trimChars text := by
  rw [List.dropWhile_eq_self_iff]
  intro hlength
  have hfront : trimChars text <+: text.dropWhile isWhitespace := List.rdropWhile_prefix _ _
  have hlt : 0 < (text.dropWhile isWhitespace).length := lt_of_lt_of_le hlength hfront.length_le
  have hself : (text.dropWhile isWhitespace).dropWhile isWhitespace =
      text.dropWhile isWhitespace := List.dropWhile_idempotent _ _
  rw [hfront.getElem hlength]
  exact List.dropWhile_eq_self_iff.mp hself hlt

/-- Trimming once is enough. -/
lemma trimChars_idem (text : List Char) : trimChars (trimChars text) = trimChars text := by
  rw [trimChars_eq (trimChars text), dropWhile_trimChars, trimChars_eq,
    List.rdropWhile_idempotent]

lemma trimChars_subset {text : List Char} {c : Char} (h : c ∈ trimChars text) : c ∈ text :=
  (List.dropWhile_suffix _).subset ((List.rdropWhile_prefix _ _).subset h)

lemma isTrimmed_ofList {text : List Char} (h : (trimChars text).isEmpty = false) :
    IsTrimmed (String.ofList (trimChars text)) := by
  refine ⟨by rw [String.toList_ofList, trimChars_idem], fun hempty => ?_⟩
  have hnil := congrArg String.toList hempty
  rw [String.toList_ofList] at hnil
  simp [hnil] at h

/-! ### Splitting at a character -/

/-- `str::split_once`. -/
def splitOnce (c : Char) (text : List Char) : Option (List Char × List Char) :=
  if c ∈ text then some (text.takeWhile (· ≠ c), (text.dropWhile (· ≠ c)).tail) else none

/-- `str::rsplit_once`. -/
def rsplitOnce (c : Char) (text : List Char) : Option (List Char × List Char) :=
  (splitOnce c text.reverse).map fun parts => (parts.2.reverse, parts.1.reverse)

/-- `str::strip_prefix`. -/
def stripFront (front text : List Char) : Option (List Char) :=
  if front <+: text then some (text.drop front.length) else none

section Split

variable {c : Char} {text before after : List Char}

lemma splitOnce_append (h : c ∉ before) :
    splitOnce c (before ++ c :: after) = some (before, after) := by
  have hall : ∀ x ∈ before, decide (x ≠ c) = true := fun x hx =>
    decide_eq_true fun heq => h (heq ▸ hx)
  rw [splitOnce, if_pos (by simp), List.takeWhile_append_of_pos hall,
    List.dropWhile_append_of_pos hall]
  simp

lemma splitOnce_eq_some (h : splitOnce c text = some (before, after)) :
    text = before ++ c :: after ∧ c ∉ before := by
  rw [splitOnce] at h
  split_ifs at h with hmem
  simp only [Option.some.injEq, Prod.mk.injEq] at h
  obtain ⟨rfl, rfl⟩ := h
  refine ⟨?_, fun hin => by simpa using List.mem_takeWhile_imp hin⟩
  have hne : text.dropWhile (· ≠ c) ≠ [] := by
    rw [Ne, List.dropWhile_eq_nil_iff]
    intro hall
    simpa using hall c hmem
  obtain ⟨d, rest, hrest⟩ := List.exists_cons_of_ne_nil hne
  have hd : d = c := by
    have hhead := List.head?_dropWhile_not (· ≠ c) text
    rw [hrest] at hhead
    simpa using hhead
  conv_lhs => rw [← List.takeWhile_append_dropWhile (p := (· ≠ c)) (l := text)]
  rw [hrest, hd, List.tail_cons]

lemma splitOnce_eq_none : splitOnce c text = none ↔ c ∉ text := by
  rw [splitOnce]
  split_ifs with h <;> simp [h]

lemma rsplitOnce_append (h : c ∉ after) :
    rsplitOnce c (before ++ c :: after) = some (before, after) := by
  have hreverse : (before ++ c :: after).reverse = after.reverse ++ c :: before.reverse := by
    simp
  rw [rsplitOnce, hreverse, splitOnce_append (by simpa using h)]
  simp

lemma rsplitOnce_eq_some (h : rsplitOnce c text = some (before, after)) :
    text = before ++ c :: after ∧ c ∉ after := by
  obtain ⟨⟨a, b⟩, hsplit, hparts⟩ := Option.map_eq_some_iff.mp h
  simp only [Prod.mk.injEq] at hparts
  obtain ⟨rfl, rfl⟩ := hparts
  obtain ⟨htext, hmem⟩ := splitOnce_eq_some hsplit
  refine ⟨?_, by simpa using hmem⟩
  rw [← List.reverse_reverse text, htext]
  simp

lemma rsplitOnce_eq_none : rsplitOnce c text = none ↔ c ∉ text := by
  rw [rsplitOnce, Option.map_eq_none_iff, splitOnce_eq_none, List.mem_reverse]

/-- What `str::split` gives has no separator. -/
lemma notMem_splitOn {a : Char} {text segment : List Char} (h : segment ∈ text.splitOn a) :
    a ∉ segment := by
  induction text generalizing segment with
  | nil =>
    simp only [List.splitOn_nil, List.mem_singleton] at h
    simp [h]
  | cons c text ih =>
    rw [List.splitOn_cons_eq_if_modifyHead] at h
    split_ifs at h with hc
    · rcases List.mem_cons.mp h with rfl | h
      · exact List.not_mem_nil
      · exact ih h
    · cases hsplit : text.splitOn a with
      | nil => exact absurd hsplit (List.splitOn_ne_nil a text)
      | cons first rest =>
        rw [hsplit, List.modifyHead_cons] at h
        rcases List.mem_cons.mp h with rfl | h
        · rw [List.mem_cons, not_or]
          refine ⟨fun heq => hc (beq_iff_eq.mpr heq.symm), ih ?_⟩
          rw [hsplit]
          exact List.mem_cons_self
        · exact ih (hsplit ▸ List.mem_cons_of_mem _ h)

end Split

end Rupi
