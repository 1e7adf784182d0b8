import Mathlib.Logic.Relation
import Rupi.Lib.Keyed

/-!
Walking from an entry to its parent, and on, until an entry has none.

Entries are found by their key and name their parent by its key. A walk ends at an
entry without a parent, at a parent that is not there, or where it has been before.

- `ascend`: the walk, which keeps the entries it has passed, newest first.
- `Link`: one entry is the parent of another.
- **`ascend_root_iff`**, **`ascend_dangling_iff`**, **`ascend_cycle_iff`**: how it ends,
  in terms of the links alone.
-/

namespace Ascent

open Relation

variable {α κ : Type*} [DecidableEq κ] {key : α → κ} {parent : α → Option κ} {entries : List α}

/-- How a walk ends. -/
inductive Ending (α κ : Type*) where
  | root (path : List α)
  | dangling (entry : α) (parent : κ)
  | cycle (entry : α)
  deriving DecidableEq

/-- Entries that a walk has not passed. -/
def unvisited (key : α → κ) (entries path : List α) : List α :=
  entries.filter fun entry => key entry ∉ path.map key

/-- Passing a new entry leaves fewer to pass. -/
lemma length_unvisited_cons {path : List α} {entry : α} (hentry : entry ∈ entries)
    (hpath : key entry ∉ path.map key) :
    (unvisited key entries (entry :: path)).length < (unvisited key entries path).length := by
  have hsplit : unvisited key entries (entry :: path) =
      (unvisited key entries path).filter fun e => key e ≠ key entry := by
    simp [unvisited, List.filter_filter, not_or]
  rw [hsplit, List.length_filter_lt_length_iff_exists]
  exact ⟨entry, List.mem_filter.mpr ⟨hentry, by simpa using hpath⟩, by simp⟩

/-- The walk from an entry, with the entries passed so far. The path grows at its
front, so it ends up in order from the root down. -/
def ascend (key : α → κ) (parent : α → Option κ) (entries : List α) (path : List α) (entry : α)
    (_hentry : entry ∈ entries) : Ending α κ :=
  if _hpath : key entry ∈ path.map key then .cycle entry
  else
    match parent entry with
    | none => .root (entry :: path)
    | some k =>
      match _hnext : Keyed.lookup key k entries with
      | none => .dangling entry k
      | some next => ascend key parent entries (entry :: path) next (Keyed.mem_of_lookup _hnext)
termination_by (unvisited key entries path).length
decreasing_by exact length_unvisited_cons _hentry _hpath

/-! ### Links -/

/-- `b` is the parent of `a`. -/
def Link (key : α → κ) (parent : α → Option κ) (entries : List α) (a b : α) : Prop :=
  ∃ k ∈ parent a, Keyed.lookup key k entries = some b

lemma link_rightUnique : Relator.RightUnique (Link key parent entries) := by
  rintro a b c ⟨k, hk, hb⟩ ⟨k', hk', hc⟩
  obtain rfl := Option.mem_unique hk hk'
  exact Option.some.inj (hb.symm.trans hc)

/-- Whatever is above a cycle lies on it. -/
lemma cycle_of_reaches {a b : α} (hcycle : TransGen (Link key parent entries) a a)
    (hab : ReflTransGen (Link key parent entries) a b) :
    TransGen (Link key parent entries) b b := by
  induction hab with
  | refl => exact hcycle
  | tail _ hbc ih =>
    obtain ⟨d, hbd, hdb⟩ := TransGen.head'_iff.mp ih
    obtain rfl := link_rightUnique hbc hbd
    exact TransGen.tail' hdb hbc

/-- A walk comes by only one entry that has nothing above it. -/
lemma eq_of_terminal {leaf a b : α} (ha : ReflTransGen (Link key parent entries) leaf a)
    (hb : ReflTransGen (Link key parent entries) leaf b)
    (htop : ∀ c, ¬Link key parent entries a c) (hbtop : ∀ c, ¬Link key parent entries b c) :
    a = b := by
  rcases ReflTransGen.total_of_right_unique link_rightUnique ha hb with hab | hba
  · rcases ReflTransGen.cases_head hab with rfl | ⟨c, hac, -⟩
    · rfl
    · exact absurd hac (htop c)
  · rcases ReflTransGen.cases_head hba with rfl | ⟨c, hbc, -⟩
    · rfl
    · exact absurd hbc (hbtop c)

/-- A walk that comes to an entry with nothing above it comes by no cycle. -/
lemma not_cycle_of_terminal {leaf a b : α}
    (ha : ReflTransGen (Link key parent entries) leaf a)
    (htop : ∀ c, ¬Link key parent entries a c)
    (hb : ReflTransGen (Link key parent entries) leaf b) :
    ¬TransGen (Link key parent entries) b b := by
  intro hcycle
  have hcycle' : TransGen (Link key parent entries) a a := by
    rcases ReflTransGen.total_of_right_unique link_rightUnique ha hb with hab | hba
    · rcases ReflTransGen.cases_head hab with rfl | ⟨c, hac, -⟩
      · exact hcycle
      · exact absurd hac (htop c)
    · exact cycle_of_reaches hcycle hba
  obtain ⟨c, hac, -⟩ := TransGen.head'_iff.mp hcycle'
  exact htop c hac

lemma not_link_of_root {a b : α} (h : parent a = none) : ¬Link key parent entries a b := by
  rintro ⟨k, hk, -⟩
  exact absurd (h.symm.trans hk) (by simp)

lemma not_link_of_dangling {a b : α} {k : κ} (h : parent a = some k)
    (hmissing : Keyed.lookup key k entries = none) : ¬Link key parent entries a b := by
  rintro ⟨k', hk', hb⟩
  obtain rfl := Option.some.inj (h.symm.trans hk')
  exact absurd (hmissing.symm.trans hb) (by simp)

/-! ### How a walk ends -/

/-- A path from the root down: each entry is the parent of the next. -/
def IsPath (key : α → κ) (parent : α → Option κ) (entries path : List α) : Prop :=
  path.IsChain fun a b => Link key parent entries b a

/-- Everything further down a path leads up to its first entry. -/
lemma IsPath.reaches {path : List α} {a : α} (h : IsPath key parent entries (a :: path)) :
    ∀ b ∈ path, TransGen (Link key parent entries) b a := by
  have hchain : (a :: path).IsChain fun a b => TransGen (Link key parent entries) b a :=
    h.imp fun _ _ hlink => .single hlink
  have htrans : IsTrans α fun a b => TransGen (Link key parent entries) b a :=
    ⟨fun _ _ _ hab hbc => hbc.trans hab⟩
  exact (List.pairwise_cons.mp hchain.pairwise).1

/-- What each ending says about the links above the leaf. -/
def EndsAt (key : α → κ) (parent : α → Option κ) (entries : List α) (leaf : α) :
    Ending α κ → Prop
  | .root path => IsPath key parent entries path ∧ (path.map key).Nodup ∧
      (∀ entry ∈ path, entry ∈ entries) ∧ path.getLast? = some leaf ∧
      ∃ root ∈ path.head?, parent root = none ∧
        ReflTransGen (Link key parent entries) leaf root
  | .dangling entry k => ReflTransGen (Link key parent entries) leaf entry ∧
      parent entry = some k ∧ Keyed.lookup key k entries = none
  | .cycle entry => ReflTransGen (Link key parent entries) leaf entry ∧
      TransGen (Link key parent entries) entry entry

/-- The walk from the entry a path has led to. -/
lemma ascend_endsAt (hdistinct : Keyed.Distinct key entries) {leaf : α} (path : List α)
    (entry : α) (hentry : entry ∈ entries) (hmem : ∀ e ∈ path, e ∈ entries)
    (hpath : IsPath key parent entries (entry :: path)) (hnodup : (path.map key).Nodup)
    (hleaf : (entry :: path).getLast? = some leaf) :
    EndsAt key parent entries leaf (ascend key parent entries path entry hentry) := by
  have hreach : ReflTransGen (Link key parent entries) leaf entry := by
    rcases List.mem_cons.mp (List.mem_of_getLast? hleaf) with rfl | hlast
    · exact .refl
    · exact (hpath.reaches leaf hlast).to_reflTransGen
  induction path, entry, hentry using ascend.induct key parent entries with
  | case1 path entry hentry hseen =>
    -- the keys are distinct, so it is the same entry again
    obtain ⟨e, he, hkey⟩ := List.mem_map.mp hseen
    obtain rfl := List.inj_on_of_nodup_map hdistinct (hmem e he) hentry hkey
    rw [ascend, dif_pos hseen]
    exact ⟨hreach, hpath.reaches e he⟩
  | case2 path entry hentry hseen hnone =>
    rw [ascend, dif_neg hseen]
    simp only [hnone]
    exact ⟨hpath, List.nodup_cons.mpr ⟨hseen, hnodup⟩,
      List.forall_mem_cons.mpr ⟨hentry, hmem⟩, hleaf, entry, rfl, hnone, hreach⟩
  | case3 path entry hentry hseen k hk hmissing =>
    rw [ascend, dif_neg hseen]
    simp only [hk]
    split
    · exact ⟨hreach, hk, hmissing⟩
    · simp_all
  | case4 path entry hentry hseen k hk next hnext ih =>
    have hlink : Link key parent entries entry next := ⟨k, hk, hnext⟩
    have hstep := ih (List.forall_mem_cons.mpr ⟨hentry, hmem⟩)
      (List.isChain_cons_cons.mpr ⟨hlink, hpath⟩) (List.nodup_cons.mpr ⟨hseen, hnodup⟩)
      (by rw [List.getLast?_cons_cons, hleaf]) (hreach.tail hlink)
    rw [ascend, dif_neg hseen]
    simp only [hk]
    split
    · simp_all
    · rename_i other hother
      obtain rfl := Option.some.inj (hnext.symm.trans hother)
      exact hstep

variable {leaf : α} (hleaf : leaf ∈ entries)

/-- Every walk ends in one of the three ways. -/
theorem ascend_spec (hdistinct : Keyed.Distinct key entries) :
    EndsAt key parent entries leaf (ascend key parent entries [] leaf hleaf) :=
  ascend_endsAt hdistinct [] leaf hleaf (by simp) (List.isChain_singleton _) List.nodup_nil rfl

/-- **A path is returned** exactly when the walk leads to an entry without a parent. -/
theorem ascend_root_iff (hdistinct : Keyed.Distinct key entries) :
    (∃ path, ascend key parent entries [] leaf hleaf = .root path) ↔
      ∃ root, ReflTransGen (Link key parent entries) leaf root ∧ parent root = none := by
  have hspec : EndsAt key parent entries leaf (ascend key parent entries [] leaf hleaf) :=
    ascend_spec hleaf hdistinct
  constructor
  · rintro ⟨path, h⟩
    rw [h] at hspec
    obtain ⟨-, -, -, -, root, -, hroot, hreach⟩ := hspec
    exact ⟨root, hreach, hroot⟩
  · rintro ⟨root, hreach, hroot⟩
    have htop : ∀ c, ¬Link key parent entries root c := fun _ => not_link_of_root hroot
    cases hend : ascend key parent entries [] leaf hleaf with
    | root path => exact ⟨path, rfl⟩
    | dangling entry k =>
      rw [hend] at hspec
      obtain ⟨hentry, hk, hmissing⟩ := hspec
      obtain rfl := eq_of_terminal hreach hentry htop fun _ => not_link_of_dangling hk hmissing
      exact absurd (hroot.symm.trans hk) (by simp)
    | cycle entry =>
      rw [hend] at hspec
      exact absurd hspec.2 (not_cycle_of_terminal hreach htop hspec.1)

/-- **A parent is found missing** exactly when the walk leads to an entry whose parent
is missing. -/
theorem ascend_dangling_iff (hdistinct : Keyed.Distinct key entries) {entry : α} {k : κ} :
    ascend key parent entries [] leaf hleaf = .dangling entry k ↔
      ReflTransGen (Link key parent entries) leaf entry ∧ parent entry = some k ∧
        Keyed.lookup key k entries = none := by
  have hspec : EndsAt key parent entries leaf (ascend key parent entries [] leaf hleaf) :=
    ascend_spec hleaf hdistinct
  constructor
  · intro h
    rwa [h] at hspec
  · rintro ⟨hreach, hk, hmissing⟩
    have htop : ∀ c, ¬Link key parent entries entry c := fun _ => not_link_of_dangling hk hmissing
    cases hend : ascend key parent entries [] leaf hleaf with
    | root path =>
      rw [hend] at hspec
      obtain ⟨-, -, -, -, root, -, hroot, hreach'⟩ := hspec
      obtain rfl := eq_of_terminal hreach hreach' htop fun _ => not_link_of_root hroot
      exact absurd (hroot.symm.trans hk) (by simp)
    | dangling other k' =>
      rw [hend] at hspec
      obtain ⟨hother, hk', hmissing'⟩ := hspec
      obtain rfl := eq_of_terminal hreach hother htop fun _ => not_link_of_dangling hk' hmissing'
      rw [Option.some.inj (hk.symm.trans hk')]
    | cycle other =>
      rw [hend] at hspec
      exact absurd hspec.2 (not_cycle_of_terminal hreach htop hspec.1)

/-- **A cycle is found** exactly when the walk leads into one. -/
theorem ascend_cycle_iff (hdistinct : Keyed.Distinct key entries) :
    (∃ entry, ascend key parent entries [] leaf hleaf = .cycle entry) ↔
      ∃ entry, ReflTransGen (Link key parent entries) leaf entry ∧
        TransGen (Link key parent entries) entry entry := by
  have hspec : EndsAt key parent entries leaf (ascend key parent entries [] leaf hleaf) :=
    ascend_spec hleaf hdistinct
  constructor
  · rintro ⟨entry, h⟩
    rw [h] at hspec
    exact ⟨entry, hspec⟩
  · rintro ⟨entry, hreach, hcycle⟩
    cases hend : ascend key parent entries [] leaf hleaf with
    | root path =>
      rw [hend] at hspec
      obtain ⟨-, -, -, -, root, -, hroot, hreach'⟩ := hspec
      exact absurd hcycle
        (not_cycle_of_terminal hreach' (fun _ => not_link_of_root hroot) hreach)
    | dangling other k =>
      rw [hend] at hspec
      obtain ⟨hother, hk, hmissing⟩ := hspec
      exact absurd hcycle
        (not_cycle_of_terminal hother (fun _ => not_link_of_dangling hk hmissing) hreach)
    | cycle other => exact ⟨other, rfl⟩

end Ascent
