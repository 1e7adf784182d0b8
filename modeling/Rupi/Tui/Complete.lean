import Rupi.Core.Text

/-!
The names that Tab completes to.

- `Completions`: the names in list order, without their slashes; `Completions.new` reads them.
- `Completions.step`: what a word becomes on a press of Tab.
- `not_mem_step`: a character that no name holds, and that is neither the slash nor the space, is
  in no completion.
-/

namespace Rupi.Tui

/-- `Completions`. -/
structure Completions where
  words : List (List Char)
  deriving DecidableEq, Repr

/-- `trim_start_matches('/')`. -/
def withoutSlashes (word : List Char) : List Char := word.dropWhile (· = '/')

/-- The loop of `common_prefix` for one name. -/
def shorten (name stem : List Char) : List Char :=
  if stem <+: name ∨ stem = [] then stem else shorten name stem.dropLast
termination_by stem.length
decreasing_by
  rename_i h
  rw [List.length_dropLast]
  have hpos := List.length_pos_iff.2 (not_or.1 h).2
  omega

/-- `common_prefix`. -/
def commonPrefix : List (List Char) → List Char
  | [] => []
  | name :: names => names.foldl (fun stem name => shorten name stem) name

namespace Completions

/-- `Completions::new`. -/
def new (words : List (List Char)) : Completions where
  words := words.foldl (fun seen word =>
    let word := withoutSlashes (trimChars word)
    if word.isEmpty || seen.contains word then seen else seen ++ [word]) []

/-- `Completions::is_empty`. -/
def isEmpty (completions : Completions) : Bool := completions.words.isEmpty

/-- `Completions::matching`. -/
def matching (completions : Completions) (afterSlash : List Char) : List (List Char) :=
  completions.words.filter (afterSlash.isPrefixOf ·)

/-- `Completions::step`. -/
def step (completions : Completions) (word : List Char) (press : ℕ) : Option (List Char) :=
  match word with
  | '/' :: afterSlash =>
      match completions.matching afterSlash with
      | [] => none
      | [candidate] => if press = 0 then some ('/' :: (candidate ++ [' '])) else none
      | candidates =>
          if press = 0 then some ('/' :: commonPrefix candidates)
          else some ('/' :: candidates.getD ((press - 1) % candidates.length) [])
  | _ => none

end Completions

/-! ### What a completion holds -/

section Holds

variable {c : Char}

lemma shorten_subset (name stem : List Char) (h : c ∈ shorten name stem) : c ∈ stem := by
  fun_induction shorten name stem with
  | case1 => exact h
  | case2 stem _ ih => exact List.mem_of_mem_dropLast (ih h)

lemma mem_commonPrefix {names : List (List Char)} (h : c ∈ commonPrefix names) :
    ∃ name ∈ names, c ∈ name := by
  cases names with
  | nil => cases h
  | cons name names =>
    refine ⟨name, List.mem_cons_self, ?_⟩
    rw [commonPrefix] at h
    induction names using List.reverseRecOn with
    | nil => exact h
    | append_singleton names last ih =>
      rw [List.foldl_append] at h
      exact ih (shorten_subset _ _ h)

/-- The names that are kept hold only what the given names hold. -/
lemma not_mem_new {words : List (List Char)} (h : ∀ word ∈ words, c ∉ word) :
    ∀ word ∈ (Completions.new words).words, c ∉ word := by
  have hfold : ∀ (given seen : List (List Char)), (∀ word ∈ given, c ∉ word) →
      (∀ word ∈ seen, c ∉ word) → ∀ word ∈ given.foldl (fun seen word =>
        let word := withoutSlashes (trimChars word)
        if word.isEmpty || seen.contains word then seen else seen ++ [word]) seen, c ∉ word := by
    intro given
    induction given with
    | nil => exact fun seen _ hseen => hseen
    | cons word given ih =>
      intro seen hgiven hseen
      obtain ⟨hword, hgiven⟩ := List.forall_mem_cons.1 hgiven
      refine ih _ hgiven ?_
      dsimp only
      split_ifs
      · exact hseen
      · refine List.forall_mem_append.2 ⟨hseen, List.forall_mem_singleton.2 fun hmem => ?_⟩
        exact hword (trimChars_subset ((List.dropWhile_suffix _).subset hmem))
  exact hfold words [] h fun _ hmem => nomatch hmem

lemma mem_matching {completions : Completions} {afterSlash name : List Char}
    (h : name ∈ completions.matching afterSlash) : name ∈ completions.words :=
  List.mem_of_mem_filter h

/-- **A completion holds** what the names hold, a slash and a space. -/
theorem not_mem_step {completions : Completions} {word replacement : List Char} {press : ℕ}
    (hwords : ∀ name ∈ completions.words, c ∉ name) (hslash : c ≠ '/') (hspace : c ≠ ' ')
    (h : completions.step word press = some replacement) : c ∉ replacement := by
  rw [Completions.step.eq_def] at h
  split at h
  · rename_i afterSlash
    have hmatching : ∀ name ∈ completions.matching afterSlash, c ∉ name :=
      fun name hname => hwords name (mem_matching hname)
    split at h
    · cases h
    · rename_i candidate hone
      rw [hone, List.forall_mem_singleton] at hmatching
      split_ifs at h
      cases h
      simp only [List.mem_cons, List.mem_append, not_or]
      exact ⟨hslash, hmatching, hspace, List.not_mem_nil⟩
    · split_ifs at h
      · cases h
        refine List.not_mem_cons_of_ne_of_not_mem hslash fun hmem => ?_
        obtain ⟨name, hname, hc⟩ := mem_commonPrefix hmem
        exact hmatching name hname hc
      · cases h
        refine List.not_mem_cons_of_ne_of_not_mem hslash fun hmem => ?_
        rw [List.getD_eq_getElem?_getD] at hmem
        cases hat : (completions.matching afterSlash)[(press - 1) %
            (completions.matching afterSlash).length]? with
        | none =>
          rw [hat] at hmem
          cases hmem
        | some name =>
          rw [hat] at hmem
          exact hmatching name (List.mem_of_getElem? hat) hmem
  · cases h

end Holds

end Rupi.Tui
