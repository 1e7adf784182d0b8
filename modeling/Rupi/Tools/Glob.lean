import Rupi.Core.Text

/-!
The glob patterns of `grep`.

- `Glob`: the language of a pattern; its parameter says which option a `{a,b}` may take.
- `globMatch`: the matcher, as parsing (`parseGlob`) and matching (`matchAtoms`).
- `globMatch_iff`: it accepts the texts in which every `{a,b}` takes the first option that fits.
- `globMatch_exact`: when that is the language of the pattern.
-/

namespace Rupi

/-! ### The language of a pattern -/

/-- The body of a `[..]` admits a character. -/
def inClass (body : List Char) (c : Char) : Prop :=
  match body with
  | '!' :: set => c ∉ set
  | set => c ∈ set

/-- The texts of a pattern. `takes options option rest` says that a `{a,b}` may take the option
where the text goes on with `rest`. -/
inductive Glob (takes : List (List Char) → List Char → List Char → Prop) :
    List Char → List Char → Prop
  | done : Glob takes [] []
  | any {p text} (c : Char) (h : Glob takes p text) : Glob takes ('?' :: p) (c :: text)
  | run {p text} (skipped : List Char) (h : Glob takes p text) :
      Glob takes ('*' :: p) (skipped ++ text)
  | inSet {p text} (body : List Char) (c : Char) (hbody : ']' ∉ body) (hc : inClass body c)
      (h : Glob takes p text) : Glob takes ('[' :: (body ++ ']' :: p)) (c :: text)
  | unclosedSet {p text} (hp : ']' ∉ p) (h : Glob takes p text) :
      Glob takes ('[' :: p) ('[' :: text)
  | option {p text} (body option : List Char) (hbody : '}' ∉ body)
      (htakes : takes (body.splitOn ',') option text) (h : Glob takes p text) :
      Glob takes ('{' :: (body ++ '}' :: p)) (option ++ text)
  | unclosedChoice {p text} (hp : '}' ∉ p) (h : Glob takes p text) :
      Glob takes ('{' :: p) ('{' :: text)
  | literal {p text} (c : Char) (hc : c ≠ '?' ∧ c ≠ '*' ∧ c ≠ '[' ∧ c ≠ '{')
      (h : Glob takes p text) : Glob takes (c :: p) (c :: text)

/-- Any option may be taken. -/
def anyOption (options : List (List Char)) (option _rest : List Char) : Prop := option ∈ options

/-- The first option that the text goes on with is taken. -/
def firstOption (options : List (List Char)) (option rest : List Char) : Prop :=
  options.find? (·.isPrefixOf (option ++ rest)) = some option

/-- The text is in the language of the pattern. -/
abbrev InLanguage (pattern text : String) : Prop := Glob anyOption pattern.toList text.toList

/-! ### The matcher -/

/-- `Atom`. -/
inductive GlobAtom where
  | literal (c : Char)
  | any
  | star
  | set (chars : List Char) (negated : Bool)
  | choice (options : List (List Char))
  deriving DecidableEq, Repr

/-- The atom of a `[..]`. -/
def classAtom : List Char → GlobAtom
  | '!' :: chars => .set chars true
  | chars => .set chars false

/-- The loop of `parse_glob`; every round takes a character, so as many rounds as there are
characters are enough. -/
def parseAtoms : Nat → List Char → List GlobAtom
  | 0, _ => []
  | _ + 1, [] => []
  | rounds + 1, c :: p =>
    if c = '?' then .any :: parseAtoms rounds p
    else if c = '*' then .star :: parseAtoms rounds (p.dropWhile (· = '*'))
    else if c = '[' then
      match splitOnce ']' p with
      | none => .literal '[' :: parseAtoms rounds p
      | some (body, rest) => classAtom body :: parseAtoms rounds rest
    else if c = '{' then
      match splitOnce '}' p with
      | none => .literal '{' :: parseAtoms rounds p
      | some (body, rest) => .choice (body.splitOn ',') :: parseAtoms rounds rest
    else .literal c :: parseAtoms rounds p

/-- `parse_glob`. -/
def parseGlob (pattern : List Char) : List GlobAtom := parseAtoms pattern.length pattern

/-- `match_atoms`, from an atom and a place in the text on. -/
def matchAtoms : List GlobAtom → List Char → Bool
  | [], text => text.isEmpty
  | .literal c :: atoms, d :: text => d == c && matchAtoms atoms text
  | .any :: atoms, _ :: text => matchAtoms atoms text
  | .set chars negated :: atoms, d :: text =>
    (chars.contains d != negated) && matchAtoms atoms text
  | .choice options :: atoms, text =>
    match options.find? (·.isPrefixOf text) with
    | some option => matchAtoms atoms (text.drop option.length)
    | none => false
  | .star :: atoms, text => text.tails.any (matchAtoms atoms)
  | .literal _ :: _, [] | .any :: _, [] | .set _ _ :: _, [] => false

/-- `glob_match`. -/
def globMatch (pattern text : String) : Bool := matchAtoms (parseGlob pattern.toList) text.toList

/-! ### Atoms -/

/-- The text divided among atoms. -/
def Divides (takes : List (List Char) → List Char → List Char → Prop) :
    List GlobAtom → List Char → Prop
  | [], text => text = []
  | .literal c :: atoms, text => ∃ rest, text = c :: rest ∧ Divides takes atoms rest
  | .any :: atoms, text => ∃ c rest, text = c :: rest ∧ Divides takes atoms rest
  | .set chars negated :: atoms, text =>
    ∃ c rest, text = c :: rest ∧ (c ∈ chars ↔ negated = false) ∧ Divides takes atoms rest
  | .choice options :: atoms, text =>
    ∃ option rest, text = option ++ rest ∧ takes options option rest ∧ Divides takes atoms rest
  | .star :: atoms, text => ∃ skipped rest, text = skipped ++ rest ∧ Divides takes atoms rest

lemma contains_bne {chars : List Char} {c : Char} {negated : Bool} :
    (chars.contains c != negated) = true ↔ (c ∈ chars ↔ negated = false) := by
  cases negated <;> by_cases h : c ∈ chars <;> simp [h]

/-- **The matcher takes the first option that fits.** -/
lemma matchAtoms_iff (atoms : List GlobAtom) (text : List Char) :
    matchAtoms atoms text = true ↔ Divides firstOption atoms text := by
  induction atoms generalizing text with
  | nil => simp [matchAtoms, Divides]
  | cons atom atoms ih =>
    cases atom with
    | literal c => cases text <;> simp [matchAtoms, Divides, ih]
    | any => cases text <;> simp [matchAtoms, Divides, ih]
    | set chars negated =>
      cases text with
      | nil => simp [matchAtoms, Divides]
      | cons d text =>
        rw [matchAtoms, Bool.and_eq_true, contains_bne, ih, Divides]
        constructor
        · rintro ⟨hd, hrest⟩
          exact ⟨d, text, rfl, hd, hrest⟩
        · rintro ⟨c, rest, heq, hc, hrest⟩
          cases heq
          exact ⟨hc, hrest⟩
    | choice options =>
      rw [matchAtoms, Divides]
      constructor
      · intro h
        cases hfind : options.find? (·.isPrefixOf text) with
        | none => simp [hfind] at h
        | some option =>
          have hfits := List.find?_some hfind
          obtain ⟨rest, rfl⟩ := List.isPrefixOf_iff_prefix.mp hfits
          simp only [hfind, List.drop_left, ih] at h
          exact ⟨option, rest, rfl, hfind, h⟩
      · rintro ⟨option, rest, rfl, htakes, hrest⟩
        rw [firstOption] at htakes
        simp only [htakes, List.drop_left, ih]
        exact hrest
    | star =>
      rw [matchAtoms, List.any_eq_true, Divides]
      constructor
      · rintro ⟨rest, hmem, hrest⟩
        obtain ⟨skipped, rfl⟩ := (List.mem_tails _ _).1 hmem
        exact ⟨skipped, rest, rfl, (ih rest).1 hrest⟩
      · rintro ⟨skipped, rest, rfl, hrest⟩
        exact ⟨rest, (List.mem_tails _ _).2 (List.suffix_append _ _), (ih rest).2 hrest⟩

/-! ### Parsing -/

section Parse

variable {takes : List (List Char) → List Char → List Char → Prop} {p body text : List Char}

lemma glob_nil : Glob takes [] text ↔ text = [] := by
  constructor
  · rintro ⟨⟩
    rfl
  · rintro rfl
    exact .done

lemma glob_any : Glob takes ('?' :: p) text ↔ ∃ c rest, text = c :: rest ∧ Glob takes p rest := by
  constructor
  · intro h
    cases h with
    | any c h => exact ⟨c, _, rfl, h⟩
    | literal c hc h => exact absurd rfl hc.1
  · rintro ⟨c, rest, rfl, h⟩
    exact .any c h

lemma glob_run :
    Glob takes ('*' :: p) text ↔ ∃ skipped rest, text = skipped ++ rest ∧ Glob takes p rest := by
  constructor
  · intro h
    cases h with
    | run skipped h => exact ⟨skipped, _, rfl, h⟩
    | literal c hc h => exact absurd rfl hc.2.1
  · rintro ⟨skipped, rest, rfl, h⟩
    exact .run skipped h

/-- A run of stars is one star. -/
lemma glob_stars :
    Glob takes ('*' :: p) text ↔ Glob takes ('*' :: p.dropWhile (· = '*')) text := by
  induction p generalizing text with
  | nil => rfl
  | cons c p ih =>
    by_cases hc : c = '*'
    · subst hc
      rw [List.dropWhile_cons_of_pos (by simp), ← ih]
      constructor
      · rw [glob_run]
        rintro ⟨skipped, rest, rfl, h⟩
        obtain ⟨skipped', rest', rfl, h'⟩ := glob_run.1 h
        exact glob_run.2 ⟨skipped ++ skipped', rest', by simp, h'⟩
      · intro h
        exact .run [] h
    · rw [List.dropWhile_cons_of_neg (by simpa using hc)]

/-- The first closing character is the one that closes. -/
lemma closing_unique {c : Char} {body body' p p' : List Char} (hbody : c ∉ body) (hbody' : c ∉ body')
    (h : body ++ c :: p = body' ++ c :: p') : body = body' ∧ p = p' := by
  have hsplit : splitOnce c (body ++ c :: p) = some (body, p) := splitOnce_append hbody
  rw [h, splitOnce_append hbody'] at hsplit
  cases hsplit
  exact ⟨rfl, rfl⟩

lemma glob_inSet (hbody : ']' ∉ body) : Glob takes ('[' :: (body ++ ']' :: p)) text ↔
    ∃ c rest, text = c :: rest ∧ inClass body c ∧ Glob takes p rest := by
  constructor
  · generalize hpattern : '[' :: (body ++ ']' :: p) = pattern
    intro h
    cases h with
    | inSet body' c hbody' hc h =>
      obtain ⟨rfl, rfl⟩ := closing_unique hbody hbody' (List.cons.inj hpattern).2
      exact ⟨c, _, rfl, hc, h⟩
    | unclosedSet hp h =>
      cases hpattern
      exact absurd (by simp) hp
    | literal c hc h =>
      cases hpattern
      exact absurd rfl hc.2.2.1
    | done => cases hpattern
    | any => cases hpattern
    | run => cases hpattern
    | option => cases hpattern
    | unclosedChoice => cases hpattern
  · rintro ⟨c, rest, rfl, hc, h⟩
    exact .inSet body c hbody hc h

lemma glob_unclosedSet (hp : ']' ∉ p) : Glob takes ('[' :: p) text ↔
    ∃ rest, text = '[' :: rest ∧ Glob takes p rest := by
  constructor
  · intro h
    cases h with
    | inSet body c hbody hc h => exact absurd (by simp) hp
    | unclosedSet _ h => exact ⟨_, rfl, h⟩
    | literal c hc h => exact absurd rfl hc.2.2.1
  · rintro ⟨rest, rfl, h⟩
    exact .unclosedSet hp h

lemma glob_option (hbody : '}' ∉ body) : Glob takes ('{' :: (body ++ '}' :: p)) text ↔
    ∃ option rest, text = option ++ rest ∧ takes (body.splitOn ',') option rest ∧
      Glob takes p rest := by
  constructor
  · generalize hpattern : '{' :: (body ++ '}' :: p) = pattern
    intro h
    cases h with
    | option body' option hbody' htakes h =>
      obtain ⟨rfl, rfl⟩ := closing_unique hbody hbody' (List.cons.inj hpattern).2
      exact ⟨option, _, rfl, htakes, h⟩
    | unclosedChoice hp h =>
      cases hpattern
      exact absurd (by simp) hp
    | literal c hc h =>
      cases hpattern
      exact absurd rfl hc.2.2.2
    | done => cases hpattern
    | any => cases hpattern
    | run => cases hpattern
    | inSet => cases hpattern
    | unclosedSet => cases hpattern
  · rintro ⟨option, rest, rfl, htakes, h⟩
    exact .option body option hbody htakes h

lemma glob_unclosedChoice (hp : '}' ∉ p) : Glob takes ('{' :: p) text ↔
    ∃ rest, text = '{' :: rest ∧ Glob takes p rest := by
  constructor
  · intro h
    cases h with
    | option body option hbody htakes h => exact absurd (by simp) hp
    | unclosedChoice _ h => exact ⟨_, rfl, h⟩
    | literal c hc h => exact absurd rfl hc.2.2.2
  · rintro ⟨rest, rfl, h⟩
    exact .unclosedChoice hp h

lemma glob_literal {c : Char} (hc : c ≠ '?' ∧ c ≠ '*' ∧ c ≠ '[' ∧ c ≠ '{') :
    Glob takes (c :: p) text ↔ ∃ rest, text = c :: rest ∧ Glob takes p rest := by
  constructor
  · intro h
    cases h with
    | literal _ _ h => exact ⟨_, rfl, h⟩
    | any => exact absurd rfl hc.1
    | run => exact absurd rfl hc.2.1
    | inSet => exact absurd rfl hc.2.2.1
    | unclosedSet => exact absurd rfl hc.2.2.1
    | option => exact absurd rfl hc.2.2.2
    | unclosedChoice => exact absurd rfl hc.2.2.2
  · rintro ⟨rest, rfl, h⟩
    exact .literal c hc h

/-- The atom of a `[..]` admits what the body admits. -/
lemma divides_classAtom {atoms : List GlobAtom} :
    Divides takes (classAtom body :: atoms) text ↔
      ∃ c rest, text = c :: rest ∧ inClass body c ∧ Divides takes atoms rest := by
  cases body with
  | nil => simp [classAtom, Divides, inClass]
  | cons d set =>
    by_cases hd : d = '!'
    · subst hd
      simp [classAtom, Divides, inClass]
    · rw [classAtom.eq_2 _ (by simpa using hd)]
      simp [Divides, inClass, hd]

/-- **The atoms of a pattern have its language.** -/
lemma divides_parseAtoms {rounds : Nat} (h : p.length ≤ rounds) (text : List Char) :
    Divides takes (parseAtoms rounds p) text ↔ Glob takes p text := by
  induction rounds generalizing p text with
  | zero =>
    obtain rfl := List.length_eq_zero_iff.mp (Nat.le_zero.mp h)
    exact glob_nil.symm
  | succ rounds ih =>
    cases p with
    | nil => exact glob_nil.symm
    | cons c p =>
      have hp : p.length ≤ rounds := Nat.succ_le_succ_iff.mp h
      rw [parseAtoms]
      split_ifs with hany hstar hset hchoice
      · subst hany
        simp only [glob_any, Divides, ih hp]
      · subst hstar
        have hle := (List.dropWhile_suffix (· = '*') (l := p)).length_le
        rw [glob_stars, glob_run]
        simp only [Divides, ih (hle.trans hp)]
      · subst hset
        split
        next hnone =>
          simp only [glob_unclosedSet (splitOnce_eq_none.1 hnone), Divides, ih hp]
        next body rest hsome =>
          obtain ⟨rfl, hbody⟩ := splitOnce_eq_some hsome
          have hrest : rest.length ≤ rounds := by simp at hp; omega
          simp only [glob_inSet hbody, divides_classAtom, ih hrest]
      · subst hchoice
        split
        next hnone =>
          simp only [glob_unclosedChoice (splitOnce_eq_none.1 hnone), Divides, ih hp]
        next body rest hsome =>
          obtain ⟨rfl, hbody⟩ := splitOnce_eq_some hsome
          have hrest : rest.length ≤ rounds := by simp at hp; omega
          simp only [glob_option hbody, Divides, ih hrest]
      · simp only [glob_literal ⟨hany, hstar, hset, hchoice⟩, Divides, ih hp]

end Parse

/-! ### What the matcher accepts -/

/-- **The matcher accepts the texts in which every `{a,b}` takes the first option that fits.** -/
theorem globMatch_iff (pattern text : String) :
    globMatch pattern text = true ↔ Glob firstOption pattern.toList text.toList := by
  rw [globMatch, matchAtoms_iff, parseGlob, divides_parseAtoms le_rfl]

/-- Taking the first option that fits is taking an option. -/
lemma Glob.anyOption_of_first {p text : List Char} (h : Glob firstOption p text) :
    Glob anyOption p text := by
  induction h with
  | done => exact .done
  | any c _ ih => exact .any c ih
  | run skipped _ ih => exact .run skipped ih
  | inSet body c hbody hc _ ih => exact .inSet body c hbody hc ih
  | unclosedSet hp _ ih => exact .unclosedSet hp ih
  | option body option hbody htakes _ ih =>
    exact .option body option hbody (List.mem_of_find?_eq_some htakes) ih
  | unclosedChoice hp _ ih => exact .unclosedChoice hp ih
  | literal c hc _ ih => exact .literal c hc ih

/-- No option of a choice is the beginning of another. -/
def GlobAtom.PrefixFree : GlobAtom → Prop
  | .choice options => ∀ a ∈ options, ∀ b ∈ options, a <+: b → a = b
  | _ => True

/-- Where no option begins another, an option that fits is the first that does. -/
lemma firstOption_of_prefixFree {options : List (List Char)} {option rest : List Char}
    (hfree : ∀ a ∈ options, ∀ b ∈ options, a <+: b → a = b) (h : anyOption options option rest) :
    firstOption options option rest := by
  rw [firstOption]
  have hfits : option.isPrefixOf (option ++ rest) = true :=
    List.isPrefixOf_iff_prefix.2 (List.prefix_append _ _)
  cases hfind : options.find? (·.isPrefixOf (option ++ rest)) with
  | none => exact absurd hfits (by simpa using List.find?_eq_none.1 hfind option h)
  | some other =>
    have hmem := List.mem_of_find?_eq_some hfind
    have hfits' := List.find?_some hfind
    have hother := List.isPrefixOf_iff_prefix.1 hfits'
    rcases List.prefix_or_prefix_of_prefix hother (List.prefix_append option rest) with hle | hle
    · rw [hfree other hmem option h hle]
    · rw [hfree option h other hmem hle]

lemma divides_firstOption {atoms : List GlobAtom} {text : List Char}
    (hfree : ∀ atom ∈ atoms, atom.PrefixFree) (h : Divides anyOption atoms text) :
    Divides firstOption atoms text := by
  induction atoms generalizing text with
  | nil => exact h
  | cons atom atoms ih =>
    have hrest : ∀ atom ∈ atoms, atom.PrefixFree := fun a ha => hfree a (List.mem_cons_of_mem _ ha)
    cases atom with
    | literal c =>
      obtain ⟨rest, rfl, h⟩ := h
      exact ⟨rest, rfl, ih hrest h⟩
    | any =>
      obtain ⟨c, rest, rfl, h⟩ := h
      exact ⟨c, rest, rfl, ih hrest h⟩
    | set chars negated =>
      obtain ⟨c, rest, rfl, hc, h⟩ := h
      exact ⟨c, rest, rfl, hc, ih hrest h⟩
    | choice options =>
      obtain ⟨option, rest, rfl, htakes, h⟩ := h
      exact ⟨option, rest, rfl,
        firstOption_of_prefixFree (hfree _ List.mem_cons_self) htakes, ih hrest h⟩
    | star =>
      obtain ⟨skipped, rest, rfl, h⟩ := h
      exact ⟨skipped, rest, rfl, ih hrest h⟩

/-- **When the matcher is right**: it accepts only texts of the language, and it accepts a text of
the language if and only if the text can be divided with the first option that fits in every
`{a,b}`; where no option begins another, that is every text of the language. -/
theorem globMatch_exact (pattern : String) :
    (∀ text, globMatch pattern text = true → InLanguage pattern text) ∧
      (∀ text, (globMatch pattern text = true ↔ InLanguage pattern text) ↔
        (InLanguage pattern text → Glob firstOption pattern.toList text.toList)) ∧
      ((∀ atom ∈ parseGlob pattern.toList, atom.PrefixFree) →
        ∀ text, globMatch pattern text = true ↔ InLanguage pattern text) := by
  have hsound : ∀ text, globMatch pattern text = true → InLanguage pattern text := fun text h =>
    ((globMatch_iff pattern text).1 h).anyOption_of_first
  refine ⟨hsound, fun text => ?_, fun hfree text => ⟨hsound text, fun h => ?_⟩⟩
  · rw [globMatch_iff]
    exact ⟨fun h => h.2, fun h => ⟨Glob.anyOption_of_first, h⟩⟩
  · rw [globMatch, matchAtoms_iff]
    exact divides_firstOption hfree ((divides_parseAtoms le_rfl _).2 h)

/-- **A longer option is not tried**: the text is the second option and what follows. -/
theorem globMatch_commits :
    ¬ (globMatch "\x7ba,ab\x7dc" "abc" = true ↔ InLanguage "\x7ba,ab\x7dc" "abc") := by
  have hrejects : globMatch "\x7ba,ab\x7dc" "abc" = false := by decide
  have hin : InLanguage "\x7ba,ab\x7dc" "abc" :=
    .option ['a', ',', 'a', 'b'] ['a', 'b'] (by decide) (by unfold anyOption; decide)
      (.literal 'c' (by decide) .done)
  intro h
  rw [h.2 hin] at hrejects
  cases hrejects

end Rupi
