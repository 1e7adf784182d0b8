import Rupi.Compat.Substitute

/-!
Substitution beside its grammar.

- `Segment.Regular`: the pieces that are read alike, with `written_eq_meaning`.
- `weight`, `total_lt`: without arguments, the other pieces move the weight of the text in one
  direction, but for numbers in braces that are out of range.
- `length_lt`: those show with one long argument.
- **`substitute_follows_iff`**: the bodies that are expanded as the grammar says, and the numbers
  that braces do not change.
-/

namespace Rupi.Template

variable {args : List (List Char)} {body text digits inner spec target : List Char}
  {segment : Segment}

/-! ### Numbers -/

/-- The number that the digits name. -/
abbrev decimalValue (digits : List Char) : ℕ := Nat.ofDigitChars 10 digits 0

lemma isDigits_iff : isDigits text = true ↔ text ≠ [] ∧ text.all Char.isDigit = true := by
  rw [isDigits, Bool.and_eq_true, Bool.not_eq_true', List.isEmpty_eq_false_iff]

lemma parseUsize_digits (h : isDigits text = true) :
    parseUsize text = if decimalValue text < 2 ^ 64 then some (decimalValue text) else none :=
  parseUnsigned_eq (isDigits_iff.1 h).1 (isDigits_iff.1 h).2

lemma readPosition_digits (h : isDigits text = true) :
    Placeholder.readPosition text =
      if 0 < decimalValue text then some (decimalValue text) else none := by
  obtain ⟨hne, hall⟩ := isDigits_iff.1 h
  rw [Placeholder.readPosition, parseDigits_digits hne hall, Option.filter_some]
  simp only [decide_eq_true_eq]

lemma readPosition_of_not_digits (h : isDigits text = false) :
    Placeholder.readPosition text = none := by
  have hnone : parseDigits text = none := if_neg fun hdigits => by
    rw [isDigits_iff.2 hdigits] at h
    cases h
  rw [Placeholder.readPosition, hnone]
  rfl

/-! ### Pieces that are read alike -/

/-- Digits are those of a number from 1 on that the machine has. -/
def InRange (text : List Char) : Prop :=
  isDigits text = true → 0 < decimalValue text ∧ decimalValue text < 2 ^ 64

instance (text : List Char) : Decidable (InRange text) := inferInstanceAs (Decidable (_ → _))

/-- A group that is read alike: its number is in range, all arguments are not named in braces alone,
and a slice is one of `@` with numbers in range and without signs. -/
def GroupRegular (inner : List Char) : Prop :=
  match splitOnce ':' inner with
  | none => inner ≠ ['@'] ∧ inner ≠ argumentsWord ∧ InRange inner
  | some (target, '-' :: _) => InRange target
  | some (target, spec) => (target = argumentsWord → sliceNumbers spec = none) ∧
      (target = ['@'] → sliceNumbers spec = Placeholder.readSlice spec)

/-- A piece that is read alike. -/
def Segment.Regular : Segment → Prop
  | .text _ | .all | .arguments => True
  | .number digits => InRange digits
  | .group inner => GroupRegular inner

instance (inner : List Char) : Decidable (GroupRegular inner) := by
  unfold GroupRegular
  split <;> infer_instance

instance (segment : Segment) : Decidable segment.Regular := by
  cases segment <;> unfold Segment.Regular <;> infer_instance

/-! ### Groups -/

/-- A group has no colon, or a default behind the first one, or something else. -/
lemma group_cases (inner : List Char) : splitOnce ':' inner = none ∨
    (∃ target default, splitOnce ':' inner = some (target, '-' :: default)) ∨
    ∃ target spec, splitOnce ':' inner = some (target, spec) ∧ spec.head? ≠ some '-' := by
  cases h : splitOnce ':' inner with
  | none => exact .inl rfl
  | some parts =>
    obtain ⟨target, spec⟩ := parts
    by_cases hspec : spec.head? = some '-'
    · obtain ⟨default, rfl⟩ := List.head?_eq_some_iff.1 hspec
      exact .inr (.inl ⟨target, default, rfl⟩)
    · exact .inr (.inr ⟨target, spec, rfl, hspec⟩)

/-- The value that the scan finds for a target. -/
def targetValue (target : List Char) (args : List (List Char)) : List Char :=
  if target = ['@'] ∨ target = argumentsWord then join args
  else positional args ((parseUsize target).getD 0)

/-- A target that the scan reads. -/
def IsTarget (target : List Char) : Prop :=
  target = ['@'] ∨ target = argumentsWord ∨ isDigits target = true

instance (target : List Char) : Decidable (IsTarget target) := inferInstanceAs (Decidable (_ ∨ _))

lemma braced_bare (h : splitOnce ':' inner = none) : braced inner args =
    if IsTarget inner then targetValue inner args else verbatim inner := by
  unfold braced IsTarget targetValue
  rw [h]
  dsimp only
  split_ifs <;> simp_all

lemma braced_default {default : List Char}
    (h : splitOnce ':' inner = some (target, '-' :: default)) : braced inner args =
      if IsTarget target then
        if targetValue target args = [] then default else targetValue target args
      else verbatim inner := by
  unfold braced IsTarget targetValue
  rw [h]
  dsimp only
  split_ifs <;> simp_all

lemma braced_slice (h : splitOnce ':' inner = some (target, spec)) (hspec : spec.head? ≠ some '-') :
    braced inner args = if target = ['@'] ∨ target = argumentsWord then
      (sliceFrom args spec).getD (verbatim inner) else verbatim inner := by
  unfold braced
  rw [h]
  dsimp only
  split
  · rename_i hall
    rw [if_neg fun htarget => hall.1 htarget]
  · split
    · rename_i heq
      cases heq
    · rename_i heq
      obtain rfl := Option.some.inj heq
      exact absurd rfl hspec
    · rename_i heq
      obtain rfl := Option.some.inj heq
      rfl

/-- What a group means, by its placeholder. -/
lemma meaning_group (args : List (List Char)) (inner : List Char) :
    (Segment.group inner).meaning args = match Placeholder.ofGroup inner with
      | some placeholder => placeholder.value args
      | none => verbatim inner := rfl

lemma ofGroup_bare (h : splitOnce ':' inner = none) :
    Placeholder.ofGroup inner = (Placeholder.readPosition inner).map .position := by
  rw [Placeholder.ofGroup, h]

lemma ofGroup_default {default : List Char}
    (h : splitOnce ':' inner = some (target, '-' :: default)) :
    Placeholder.ofGroup inner = (Placeholder.readTarget target).map (.orDefault · default) := by
  rw [Placeholder.ofGroup, h]
  rfl

lemma ofGroup_slice (h : splitOnce ':' inner = some (target, spec)) (hspec : spec.head? ≠ some '-') :
    Placeholder.ofGroup inner = if target = ['@'] then
      (Placeholder.readSlice spec).map fun numbers => .slice numbers.1 numbers.2 else none := by
  unfold Placeholder.ofGroup
  rw [h]
  split
  · rename_i heq
    cases heq
  · rename_i heq
    obtain ⟨-, rfl⟩ := Prod.mk.inj (Option.some.inj heq)
    exact absurd rfl hspec
  · rename_i heq
    obtain ⟨rfl, rfl⟩ := Prod.mk.inj (Option.some.inj heq)
    rfl

lemma groupRegular_slice (h : splitOnce ':' inner = some (target, spec))
    (hspec : spec.head? ≠ some '-') : GroupRegular inner ↔
      (target = argumentsWord → sliceNumbers spec = none) ∧
        (target = ['@'] → sliceNumbers spec = Placeholder.readSlice spec) := by
  unfold GroupRegular
  rw [h]
  split
  · rename_i heq
    cases heq
  · rename_i heq
    obtain ⟨-, rfl⟩ := Prod.mk.inj (Option.some.inj heq)
    exact absurd rfl hspec
  · rename_i heq
    obtain ⟨rfl, rfl⟩ := Prod.mk.inj (Option.some.inj heq)
    rfl

/-- The words for all arguments are no digits. -/
lemma not_isDigits_all (h : target = ['@'] ∨ target = argumentsWord) : isDigits target = false := by
  rcases h with rfl | rfl <;> decide

/-- A target in range is read alike. -/
lemma readTarget_value (hrange : InRange target) : IsTarget target ∧
      (∃ placeholder, Placeholder.readTarget target = some placeholder ∧
        ∀ args, placeholder.value args = targetValue target args) ∨
    ¬ IsTarget target ∧ Placeholder.readTarget target = none := by
  unfold Placeholder.readTarget targetValue
  by_cases hall : target = ['@'] ∨ target = argumentsWord
  · left
    refine ⟨by unfold IsTarget; tauto, .all, by rw [if_pos hall], fun args => ?_⟩
    rw [if_pos hall]
    rfl
  · cases hdigits : isDigits target with
    | true =>
      left
      obtain ⟨hpos, hlt⟩ := hrange hdigits
      refine ⟨.inr (.inr hdigits), .position (decimalValue target), ?_, fun args => ?_⟩
      · rw [if_neg hall, readPosition_digits hdigits, if_pos hpos]
        rfl
      · rw [if_neg hall, parseUsize_digits hdigits, if_pos hlt]
        rfl
    | false =>
      right
      refine ⟨?_, by rw [if_neg hall, readPosition_of_not_digits hdigits]; rfl⟩
      rintro (h | h | h)
      · exact hall (.inl h)
      · exact hall (.inr h)
      · rw [hdigits] at h
        cases h

/-- A regular group is written as it is meant. -/
lemma braced_eq_meaning (h : GroupRegular inner) (args : List (List Char)) :
    braced inner args = (Segment.group inner).meaning args := by
  rw [meaning_group]
  rcases group_cases inner with hsplit | ⟨target, default, hsplit⟩ | ⟨target, spec, hsplit, hspec⟩
  · unfold GroupRegular at h
    rw [hsplit] at h
    obtain ⟨hat, hword, hrange⟩ := h
    have hreads : Placeholder.readTarget inner = (Placeholder.readPosition inner).map .position :=
      if_neg (by tauto)
    rw [braced_bare hsplit, ofGroup_bare hsplit, ← hreads]
    rcases readTarget_value hrange with ⟨htarget, placeholder, hread, hvalue⟩ | ⟨htarget, hread⟩
    · rw [if_pos htarget, hread, ← hvalue]
    · rw [if_neg htarget, hread]
  · unfold GroupRegular at h
    rw [hsplit] at h
    rw [braced_default hsplit, ofGroup_default hsplit]
    rcases readTarget_value h with ⟨htarget, placeholder, hread, hvalue⟩ | ⟨htarget, hread⟩
    · rw [if_pos htarget, hread, ← hvalue]
      rfl
    · rw [if_neg htarget, hread]
      rfl
  · obtain ⟨hword, hat⟩ := (groupRegular_slice hsplit hspec).1 h
    rw [braced_slice hsplit hspec, ofGroup_slice hsplit hspec]
    by_cases htarget : target = ['@']
    · rw [if_pos (.inl htarget), if_pos htarget, sliceFrom, hat htarget]
      cases Placeholder.readSlice spec <;> rfl
    · rw [if_neg htarget]
      split_ifs with hall
      · rw [sliceFrom, hword (hall.resolve_left htarget)]
        rfl
      · rfl

/-- **A regular piece is written as it is meant.** -/
lemma written_eq_meaning (h : segment.Regular) (args : List (List Char))
    (hnumber : ∀ digits, segment = .number digits → isDigits digits = true) :
    segment.written args = segment.meaning args := by
  cases segment with
  | text c => rfl
  | all => rfl
  | arguments => rfl
  | group inner => exact braced_eq_meaning h args
  | number digits =>
    have hdigits := hnumber digits rfl
    obtain ⟨hpos, hlt⟩ := h hdigits
    have hplaceholder : Placeholder.ofSegment (.number digits) =
        some (.position (decimalValue digits)) := by
      rw [Placeholder.ofSegment, readPosition_digits hdigits, if_pos hpos]
      rfl
    rw [Segment.written, parseUsize_digits hdigits, if_pos hlt, Segment.meaning, hplaceholder]
    rfl

/-! ### Weights -/

/-- The weight of a symbol, for texts of at most `n` symbols. A slice that only the scan reads has a
letter of the word or a sign in it, which outweigh everything; zeros and the at sign weigh down, but
less than any other digit lifts. -/
def weight (n : ℕ) (c : Char) : ℤ :=
  if c = 'A' ∨ c = '+' then -(n + 1) ^ 2
  else if c = '@' ∨ c = '0' then -1
  else if c.isDigit then n + 1
  else 0

def total (n : ℕ) (text : List Char) : ℤ := (text.map (weight n)).sum

section Weight

variable {n : ℕ} {c : Char}

@[simp] lemma total_nil : total n [] = 0 := rfl

@[simp] lemma total_cons (c : Char) (text : List Char) :
    total n (c :: text) = weight n c + total n text := List.sum_cons

@[simp] lemma total_append (text rest : List Char) :
    total n (text ++ rest) = total n text + total n rest := by
  rw [total, List.map_append, List.sum_append, total, total]

lemma weight_le : weight n c ≤ n + 1 := by
  unfold weight
  split_ifs <;> nlinarith

lemma total_le (text : List Char) : total n text ≤ (n + 1) * text.length := by
  induction text with
  | nil => simp
  | cons c text ih =>
    have hc := @weight_le n c
    rw [total_cons, List.length_cons]
    push_cast
    linarith

lemma total_ge (h : ∀ c ∈ text, c ≠ 'A' ∧ c ≠ '+') : -(text.length : ℤ) ≤ total n text := by
  induction text with
  | nil => simp
  | cons c text ih =>
    have hrest := ih fun d hd => h d (List.mem_cons_of_mem _ hd)
    obtain ⟨hletter, hsign⟩ := h c List.mem_cons_self
    have hc : -1 ≤ weight n c := by
      unfold weight
      split_ifs <;> first | omega | simp_all
    rw [total_cons, List.length_cons]
    push_cast
    linarith

/-- A letter of the word, or a sign, outweighs a text. -/
lemma total_neg (hlength : text.length ≤ n) (hc : c = 'A' ∨ c = '+') (hmem : c ∈ text) :
    total n text < 0 := by
  obtain ⟨before, after, rfl⟩ := List.append_of_mem hmem
  rw [List.length_append, List.length_cons] at hlength
  have hbefore := @total_le n before
  have hafter := @total_le n after
  have hweight : weight n c = -(n + 1) ^ 2 := if_pos hc
  rw [total_append, total_cons, hweight]
  have hsum : (before.length + after.length + 1 : ℤ) ≤ n := by exact_mod_cast hlength
  nlinarith

/-- A digit other than zero lifts a text without these. -/
lemma total_pos (hlength : text.length ≤ n) (hplain : ∀ c ∈ text, c ≠ 'A' ∧ c ≠ '+')
    (hdigit : c.isDigit = true) (hzero : c ≠ '0') (hmem : c ∈ text) : 0 < total n text := by
  obtain ⟨before, after, rfl⟩ := List.append_of_mem hmem
  rw [List.length_append, List.length_cons] at hlength
  have hbefore := @total_ge before n fun d hd => hplain d (by simp [hd])
  have hafter := @total_ge after n fun d hd => hplain d (by simp [hd])
  have hweight : weight n c = n + 1 := by
    obtain ⟨hletter, hsign⟩ := hplain c hmem
    have hat : c ≠ '@' := fun heq => by rw [heq] at hdigit; cases hdigit
    rw [weight, if_neg (by tauto), if_neg (by tauto), if_pos hdigit]
  rw [total_append, total_cons, hweight]
  have hsum : (before.length + after.length + 1 : ℤ) ≤ n := by exact_mod_cast hlength
  linarith

lemma total_zeros (h : ∀ c ∈ text, c = '0') : total n text = -text.length := by
  induction text with
  | nil => rfl
  | cons c text ih =>
    have hc : weight n c = -1 := by
      rw [h c List.mem_cons_self]
      rfl
    rw [total_cons, hc, ih fun d hd => h d (List.mem_cons_of_mem _ hd), List.length_cons]
    push_cast
    ring

lemma total_verbatim (inner : List Char) : total n (verbatim inner) = total n inner := by
  have hdollar : weight n '$' = 0 := rfl
  have hopen : weight n '{' = 0 := rfl
  have hclose : weight n '}' = 0 := rfl
  rw [verbatim, List.cons_append, List.cons_append, total_cons, total_cons, total_append,
    total_cons, total_nil, hdollar, hopen, hclose]
  ring

end Weight

/-- Only zeros name zero. -/
lemma zeros_of_decimalValue (hall : digits.all Char.isDigit = true) (h : decimalValue digits = 0) :
    ∀ c ∈ digits, c = '0' := by
  induction digits with
  | nil => simp
  | cons c digits ih =>
    rw [List.all_cons, Bool.and_eq_true] at hall
    rw [decimalValue, Nat.ofDigitChars_cons, Nat.ofDigitChars_eq_ofDigitChars_zero, Nat.mul_zero,
      Nat.zero_add] at h
    obtain ⟨hfirst, hrest⟩ := Nat.add_eq_zero_iff.1 h
    have hsub : c.toNat - '0'.toNat = 0 := by
      rcases Nat.mul_eq_zero.1 hfirst with hpow | hsub
      · exact absurd hpow (by positivity)
      · exact hsub
    intro d hd
    rcases List.mem_cons.1 hd with rfl | hd
    · have hlow : '0'.toNat ≤ d.toNat := by
        have hdigit := hall.1
        simp only [Char.isDigit, Bool.and_eq_true, decide_eq_true_eq,
          UInt32.le_iff_toNat_le] at hdigit
        exact hdigit.1
      exact Char.toNat_inj.1 (by omega)
    · exact ih hall.2 hrest d hd

/-- A number from 1 on has a digit other than zero. -/
lemma exists_digit (hall : digits.all Char.isDigit = true) (h : 0 < decimalValue digits) :
    ∃ c ∈ digits, c.isDigit = true ∧ c ≠ '0' := by
  by_contra hnot
  have hzeros : ∀ c ∈ digits, c = '0' := fun c hc => by
    by_contra hne
    exact hnot ⟨c, hc, List.all_eq_true.1 hall c hc, hne⟩
  have hvalue : decimalValue digits = 0 := by
    rw [decimalValue, List.eq_replicate_of_mem hzeros, Nat.ofDigitChars_replicate_zero, Nat.mul_zero]
  omega

/-! ### Slices -/

/-- Digits have neither a letter nor a sign. -/
lemma plain_of_digits (h : isDigits text = true) : ∀ c ∈ text, c ≠ 'A' ∧ c ≠ '+' := by
  intro c hc
  have hdigit := List.all_eq_true.1 (isDigits_iff.1 h).2 c hc
  constructor <;> rintro rfl <;> cases hdigit

lemma isDigits_of_parseDigits {value : ℕ} (h : parseDigits text = some value) :
    isDigits text = true := by
  rw [parseDigits] at h
  split_ifs at h with hdigits
  exact isDigits_iff.2 hdigits

lemma readPosition_spec {value : ℕ} (h : Placeholder.readPosition text = some value) :
    isDigits text = true ∧ 0 < decimalValue text := by
  obtain ⟨hvalue, hpos⟩ := Option.mem_filter_iff.1 h
  have hdigits := isDigits_of_parseDigits hvalue
  rw [parseDigits_digits (isDigits_iff.1 hdigits).1 (isDigits_iff.1 hdigits).2] at hvalue
  obtain rfl := Option.some.inj hvalue
  exact ⟨hdigits, of_decide_eq_true hpos⟩

/-- A slice of the grammar has digits and colons only, one of them other than zero. -/
lemma readSlice_spec {numbers : ℕ × Option ℕ} (h : Placeholder.readSlice spec = some numbers) :
    (∀ c ∈ spec, c ≠ 'A' ∧ c ≠ '+') ∧ ∃ c ∈ spec, c.isDigit = true ∧ c ≠ '0' := by
  unfold Placeholder.readSlice at h
  split at h
  · obtain ⟨value, hvalue, -⟩ := Option.map_eq_some_iff.1 h
    obtain ⟨hdigits, hpos⟩ := readPosition_spec hvalue
    exact ⟨plain_of_digits hdigits, exists_digit (isDigits_iff.1 hdigits).2 hpos⟩
  · rename_i start length hsplit
    split at h
    · rename_i hstart hlength
      obtain ⟨rfl, -⟩ := splitOnce_eq_some hsplit
      obtain ⟨hdigits, hpos⟩ := readPosition_spec hstart
      obtain ⟨c, hc, hdigit⟩ := exists_digit (isDigits_iff.1 hdigits).2 hpos
      refine ⟨fun d hd => ?_, c, by simp [hc], hdigit⟩
      rcases List.mem_append.1 hd with hd | hd
      · exact plain_of_digits hdigits d hd
      · rcases List.mem_cons.1 hd with rfl | hd
        · decide
        · exact plain_of_digits (isDigits_of_parseDigits hlength) d hd
    · cases h

/-- Without a sign, a number of the machine is a decimal number. -/
lemma parseDigits_of_parseUsize {value : ℕ} (hsign : '+' ∉ text) (h : parseUsize text = some value) :
    parseDigits text = some value := by
  unfold parseUsize parseUnsigned at h
  split at h
  · exact absurd List.mem_cons_self hsign
  · exact (Option.mem_filter_iff.1 h).1

/-- Without a sign, a slice of the scan is one of the grammar. -/
lemma readSlice_of_sliceNumbers {numbers : ℕ × Option ℕ} (hsign : '+' ∉ spec)
    (h : sliceNumbers spec = some numbers) : Placeholder.readSlice spec = some numbers := by
  unfold sliceNumbers at h
  unfold Placeholder.readSlice
  cases hsplit : splitOnce ':' spec with
  | none =>
    rw [hsplit] at h
    simp only [bind, Option.bind_eq_some_iff, pure, Option.some.injEq] at h
    obtain ⟨start, hstart, rfl⟩ := h
    obtain ⟨hvalue, hpos⟩ := Option.mem_filter_iff.1 hstart
    have hread : Placeholder.readPosition spec = some start :=
      Option.mem_filter_iff.2 ⟨parseDigits_of_parseUsize hsign hvalue, hpos⟩
    dsimp only
    rw [hread]
    rfl
  | some parts =>
    obtain ⟨start, length⟩ := parts
    obtain ⟨rfl, -⟩ := splitOnce_eq_some hsplit
    rw [hsplit] at h
    simp only [bind, Option.bind_eq_some_iff, pure, Option.some.injEq] at h
    obtain ⟨first, hstart, count, hlength, rfl⟩ := h
    obtain ⟨hvalue, hpos⟩ := Option.mem_filter_iff.1 hstart
    have hread : Placeholder.readPosition start = some first :=
      Option.mem_filter_iff.2 ⟨parseDigits_of_parseUsize (fun hmem => hsign (by simp [hmem])) hvalue,
        hpos⟩
    dsimp only
    rw [hread, parseDigits_of_parseUsize (fun hmem => hsign (by simp [hmem])) hlength]

/-! ### Pieces that are read otherwise -/

/-- A number in braces that the machine does not have; the scan takes it for zero. -/
def GroupOverflowing (inner : List Char) : Prop :=
  match splitOnce ':' inner with
  | none => isDigits inner = true ∧ 2 ^ 64 ≤ decimalValue inner
  | some (target, '-' :: _) => isDigits target = true ∧ 2 ^ 64 ≤ decimalValue target
  | some _ => False

def Segment.Overflowing : Segment → Prop
  | .group inner => GroupOverflowing inner
  | _ => False

lemma join_nil : join [] = [] := rfl

lemma positional_nil (index : ℕ) : positional [] index = [] := rfl

lemma sliced_nil (numbers : ℕ × Option ℕ) : sliced [] numbers = [] := by
  obtain ⟨start, length⟩ := numbers
  cases length <;> simp [sliced, join_nil]

lemma targetValue_nil (target : List Char) : targetValue target [] = [] := by
  unfold targetValue
  split_ifs <;> rfl

section Outweighed

variable {n : ℕ}

/-- A target that is not read alike, and is not too large, is zero. -/
lemma decimalValue_of_not_inRange (hrange : ¬ InRange target)
    (hover : ¬ (isDigits target = true ∧ 2 ^ 64 ≤ decimalValue target)) :
    isDigits target = true ∧ decimalValue target = 0 := by
  unfold InRange at hrange
  push Not at hrange
  obtain ⟨hdigits, hrange⟩ := hrange
  refine ⟨hdigits, Nat.eq_zero_of_not_pos fun hpos => hover ⟨hdigits, hrange hpos⟩⟩

lemma readPosition_zero (hdigits : isDigits target = true) (hzero : decimalValue target = 0) :
    Placeholder.readPosition target = none := by
  rw [readPosition_digits hdigits, if_neg (by omega)]

/-- Zeros weigh less than nothing. -/
lemma total_zero_neg (hdigits : isDigits target = true) (hzero : decimalValue target = 0) :
    total n target < 0 := by
  obtain ⟨hne, hall⟩ := isDigits_iff.1 hdigits
  have hpos := List.length_pos_iff.2 hne
  rw [total_zeros (zeros_of_decimalValue hall hzero)]
  omega

lemma length_inner_le (hlength : (verbatim inner).length ≤ n) : inner.length ≤ n := by
  rw [length_verbatim] at hlength
  omega

lemma total_bare_lt (hsplit : splitOnce ':' inner = none) (hlength : (verbatim inner).length ≤ n)
    (hregular : ¬ GroupRegular inner) (hover : ¬ GroupOverflowing inner) :
    total n ((Segment.group inner).meaning []) < total n (braced inner []) := by
  unfold GroupRegular at hregular
  unfold GroupOverflowing at hover
  simp only [hsplit] at hregular hover
  have hweighs : IsTarget inner ∧ Placeholder.readPosition inner = none ∧ total n inner < 0 := by
    by_cases hall : inner = ['@'] ∨ inner = argumentsWord
    · refine ⟨by unfold IsTarget; tauto, readPosition_of_not_digits (not_isDigits_all hall), ?_⟩
      rcases hall with rfl | rfl
      · show weight n '@' + 0 < 0
        rw [show weight n '@' = -1 from rfl]
        decide
      · exact total_neg (length_inner_le hlength) (.inl rfl) (by decide)
    · have hrange : ¬ InRange inner := by tauto
      obtain ⟨hdigits, hzero⟩ := decimalValue_of_not_inRange hrange hover
      exact ⟨.inr (.inr hdigits), readPosition_zero hdigits hzero, total_zero_neg hdigits hzero⟩
  obtain ⟨htarget, hread, hneg⟩ := hweighs
  rw [braced_bare hsplit, if_pos htarget, targetValue_nil, meaning_group, ofGroup_bare hsplit, hread]
  show total n (verbatim inner) < 0
  rwa [total_verbatim]

lemma total_default_lt {default : List Char}
    (hsplit : splitOnce ':' inner = some (target, '-' :: default))
    (hregular : ¬ GroupRegular inner) (hover : ¬ GroupOverflowing inner) :
    total n ((Segment.group inner).meaning []) < total n (braced inner []) := by
  unfold GroupRegular at hregular
  unfold GroupOverflowing at hover
  simp only [hsplit] at hregular hover
  obtain ⟨hdigits, hzero⟩ := decimalValue_of_not_inRange hregular hover
  have hread : Placeholder.readTarget target = none := by
    have hall : ¬ (target = ['@'] ∨ target = argumentsWord) := fun hall => by
      rw [not_isDigits_all hall] at hdigits
      cases hdigits
    rw [Placeholder.readTarget, if_neg hall, readPosition_zero hdigits hzero]
    rfl
  have hneg := total_zero_neg (n := n) hdigits hzero
  obtain ⟨rfl, -⟩ := splitOnce_eq_some hsplit
  have hcolon : weight n ':' = 0 := rfl
  have hdash : weight n '-' = 0 := rfl
  rw [braced_default hsplit, if_pos (.inr (.inr hdigits)), if_pos (targetValue_nil target),
    meaning_group, ofGroup_default hsplit, hread]
  show total n (verbatim _) < _
  rw [total_verbatim, total_append, total_cons, total_cons, hcolon, hdash]
  linarith

lemma total_slice_lt (hsplit : splitOnce ':' inner = some (target, spec))
    (hspec : spec.head? ≠ some '-') (hlength : (verbatim inner).length ≤ n)
    (hregular : ¬ GroupRegular inner) :
    total n ((Segment.group inner).meaning []) < total n (braced inner []) := by
  rw [groupRegular_slice hsplit hspec] at hregular
  obtain ⟨rfl, -⟩ := splitOnce_eq_some hsplit
  rw [braced_slice hsplit hspec, meaning_group, ofGroup_slice hsplit hspec]
  have hmem : ∀ c ∈ target ++ ':' :: spec, c ∈ verbatim (target ++ ':' :: spec) := fun c hc => by
    rw [verbatim, List.cons_append, List.cons_append]
    exact List.mem_cons_of_mem _ (List.mem_cons_of_mem _ (List.mem_append_left _ hc))
  by_cases htarget : target = ['@']
  · subst htarget
    rw [if_pos rfl, if_pos (.inl rfl)]
    have hdiffer : sliceNumbers spec ≠ Placeholder.readSlice spec := fun heq =>
      hregular ⟨fun hword => absurd hword (by decide), fun _ => heq⟩
    cases hnumbers : sliceNumbers spec with
    | none =>
      -- Only the grammar reads a slice: its number is out of range.
      obtain ⟨numbers, hread⟩ := Option.ne_none_iff_exists'.1 (hnumbers ▸ hdiffer).symm
      obtain ⟨hplain, c, hc, hdigit, hzero⟩ := readSlice_spec hread
      have hpositive : 0 < total n (verbatim (['@'] ++ ':' :: spec)) := by
        refine total_pos hlength (fun d hd => ?_) hdigit hzero (hmem c (by simp [hc]))
        rw [verbatim] at hd
        simp only [List.cons_append, List.nil_append, List.mem_cons, List.mem_append,
          List.not_mem_nil, or_false] at hd
        rcases hd with rfl | rfl | rfl | rfl | hd | rfl
        · decide
        · decide
        · decide
        · decide
        · exact hplain d hd
        · decide
      rw [hread, sliceFrom, hnumbers]
      show total n (sliced [] _) < _
      rw [sliced_nil]
      exact hpositive
    | some numbers =>
      -- Only the scan reads a slice: a number has a sign.
      have hsign : '+' ∈ spec := by
        by_contra hsign
        exact hdiffer (by rw [hnumbers, readSlice_of_sliceNumbers hsign hnumbers])
      have hread : Placeholder.readSlice spec = none := by
        cases hread : Placeholder.readSlice spec with
        | none => rfl
        | some numbers => exact absurd rfl ((readSlice_spec hread).1 _ hsign).2
      rw [hread, sliceFrom, hnumbers]
      show total n (verbatim _) < total n (sliced [] _)
      rw [sliced_nil]
      exact total_neg hlength (.inr rfl) (hmem _ (by simp [hsign]))
  · have hword : target = argumentsWord ∧ sliceNumbers spec ≠ none := by tauto
    obtain ⟨rfl, hsome⟩ := hword
    obtain ⟨numbers, hnumbers⟩ := Option.ne_none_iff_exists'.1 hsome
    rw [if_neg htarget, if_pos (.inr rfl), sliceFrom, hnumbers]
    show total n (verbatim _) < total n (sliced [] _)
    rw [sliced_nil]
    exact total_neg hlength (.inl rfl) (hmem _ (by simp [argumentsWord]))

/-- **Without arguments, a piece that is not read alike is written heavier than it is meant**, but
for a number in braces that is out of range. -/
lemma total_lt (hlength : segment.source.length ≤ n)
    (hnumber : ∀ digits, segment = .number digits → isDigits digits = true)
    (hregular : ¬ segment.Regular) (hover : ¬ segment.Overflowing) :
    total n (segment.meaning []) < total n (segment.written []) := by
  cases segment with
  | text _ => exact absurd trivial hregular
  | all => exact absurd trivial hregular
  | arguments => exact absurd trivial hregular
  | number digits =>
    have hdigits := hnumber digits rfl
    have hdollar : weight n '$' = 0 := rfl
    by_cases hbig : 2 ^ 64 ≤ decimalValue digits
    · have hpos : 0 < decimalValue digits := lt_of_lt_of_le (by decide) hbig
      have hplaceholder : Placeholder.ofSegment (.number digits) =
          some (.position (decimalValue digits)) := by
        rw [Placeholder.ofSegment, readPosition_digits hdigits, if_pos hpos]
        rfl
      obtain ⟨c, hc, hdigit, hzero⟩ := exists_digit (isDigits_iff.1 hdigits).2 hpos
      rw [Segment.written, parseUsize_digits hdigits, if_neg (not_lt.2 hbig), Segment.meaning,
        hplaceholder]
      refine total_pos hlength (fun d hd => ?_) hdigit hzero (List.mem_cons_of_mem _ hc)
      rcases List.mem_cons.1 hd with rfl | hd
      · decide
      · exact plain_of_digits hdigits d hd
    · obtain ⟨-, hzero⟩ := decimalValue_of_not_inRange hregular fun h => hbig h.2
      have hplaceholder : Placeholder.ofSegment (.number digits) = none := by
        rw [Placeholder.ofSegment, readPosition_zero hdigits hzero]
        rfl
      rw [Segment.written, parseUsize_digits hdigits, hzero, Segment.meaning, hplaceholder]
      show total n ('$' :: digits) < 0
      rw [total_cons, hdollar, zero_add]
      exact total_zero_neg hdigits hzero
  | group inner =>
    rcases group_cases inner with hsplit | ⟨target, default, hsplit⟩ | ⟨target, spec, hsplit, hspec⟩
    · exact total_bare_lt hsplit hlength hregular hover
    · exact total_default_lt hsplit hregular hover
    · exact total_slice_lt hsplit hspec hlength hregular

end Outweighed

/-- A number that the machine does not have stands for the first argument in the scan, and for one
that may be missing in the grammar, both with the default of the group. -/
lemma overflowing_spec (h : segment.Overflowing) : ∃ target default,
    (isDigits target = true ∧ 2 ^ 64 ≤ decimalValue target) ∧
    default.length ≤ segment.source.length ∧ ∀ args,
      segment.written args =
        (if targetValue target args = [] then default else targetValue target args) ∧
      segment.meaning args = (Placeholder.orDefault (.position (decimalValue target)) default).value
        args := by
  cases segment with
  | text _ => exact h.elim
  | all => exact h.elim
  | arguments => exact h.elim
  | number _ => exact h.elim
  | group inner =>
    have hreads : ∀ {target}, isDigits target = true ∧ 2 ^ 64 ≤ decimalValue target →
        Placeholder.readPosition target = some (decimalValue target) := fun htarget => by
      rw [readPosition_digits htarget.1, if_pos (lt_of_lt_of_le (by decide) htarget.2)]
    have hgroup : GroupOverflowing inner := h
    unfold GroupOverflowing at hgroup
    split at hgroup
    · rename_i hsplit
      refine ⟨inner, [], hgroup, Nat.zero_le _, fun args => ⟨?_, ?_⟩⟩
      · have hwritten : (Segment.group inner).written args = braced inner args := rfl
        rw [hwritten, braced_bare hsplit, if_pos (.inr (.inr hgroup.1))]
        split_ifs with hempty
        · exact hempty
        · rfl
      · rw [meaning_group, ofGroup_bare hsplit, hreads hgroup, Placeholder.value]
        split_ifs with hempty
        · exact hempty
        · rfl
    · rename_i target default hsplit
      refine ⟨target, default, hgroup, ?_, fun args => ⟨?_, ?_⟩⟩
      · obtain ⟨rfl, -⟩ := splitOnce_eq_some hsplit
        rw [Segment.source_group, length_verbatim, List.length_append, List.length_cons,
          List.length_cons]
        omega
      · exact (braced_default hsplit).trans (if_pos (.inr (.inr hgroup.1)))
      · have hall : ¬ (target = ['@'] ∨ target = argumentsWord) := fun hall => by
          rw [not_isDigits_all hall] at hgroup
          cases hgroup.1
        rw [meaning_group, ofGroup_default hsplit, Placeholder.readTarget, if_neg hall, hreads hgroup]
        rfl
    · exact hgroup.elim

/-- Without arguments that does not show. -/
lemma overflowing_nil (h : segment.Overflowing) : segment.written [] = segment.meaning [] := by
  obtain ⟨target, default, -, -, hreads⟩ := overflowing_spec h
  obtain ⟨hwritten, hmeaning⟩ := hreads []
  rw [hwritten, hmeaning, if_pos (targetValue_nil target)]
  rfl

/-- One long argument makes what is written longer than what is meant. -/
lemma length_lt {n : ℕ} (h : segment.Overflowing) (hlength : segment.source.length ≤ n) :
    (segment.meaning [List.replicate (n + 1) 'z']).length <
      (segment.written [List.replicate (n + 1) 'z']).length := by
  obtain ⟨target, default, ⟨hdigits, hbig⟩, hdefault, hreads⟩ := overflowing_spec h
  obtain ⟨hwritten, hmeaning⟩ := hreads [List.replicate (n + 1) 'z']
  have hvalue : targetValue target [List.replicate (n + 1) 'z'] = List.replicate (n + 1) 'z' := by
    have hall : ¬ (target = ['@'] ∨ target = argumentsWord) := fun hall => by
      rw [not_isDigits_all hall] at hdigits
      cases hdigits
    rw [targetValue, if_neg hall, parseUsize_digits hdigits, if_neg (not_lt.2 hbig)]
    rfl
  have hmissing : ([List.replicate (n + 1) 'z'] : List (List Char))[decimalValue target - 1]? =
      none := by
    have htwo : 2 ≤ decimalValue target := le_trans (by decide) hbig
    rw [List.getElem?_eq_none_iff, List.length_singleton]
    omega
  rw [hwritten, hmeaning, hvalue, if_neg (by simp), List.length_replicate, Placeholder.value,
    Placeholder.value, hmissing]
  simp only [Option.getD_none, if_true]
  omega

/-! ### Bodies -/

lemma isDigits_of_mem (body : List Char) (hmem : segment ∈ segments body) :
    ∀ digits, segment = .number digits → isDigits digits = true := by
  rintro digits rfl
  exact isDigits_iff.2 ((segments_spec body).2 digits hmem)

lemma length_source_le (hmem : segment ∈ segments body) : segment.source.length ≤ body.length := by
  have hbody := congrArg List.length (segments_spec body).1
  obtain ⟨before, after, hsegments⟩ := List.append_of_mem hmem
  rw [hsegments, List.flatMap_append, List.flatMap_cons, List.length_append,
    List.length_append] at hbody
  omega

lemma total_flatMap (f : Segment → List Char) (n : ℕ) (pieces : List Segment) :
    total n (pieces.flatMap f) = (pieces.map fun piece => total n (f piece)).sum := by
  induction pieces with
  | nil => rfl
  | cons piece pieces ih =>
    rw [List.flatMap_cons, total_append, ih, List.map_cons, List.sum_cons]

/-- A body of regular pieces is expanded as it is meant. -/
lemma substitute_of_regular (h : ∀ segment ∈ segments body, segment.Regular)
    (args : List (List Char)) : substitute body args = reference body args := by
  rw [substitute_eq_written, reference]
  exact List.flatMap_congr fun segment hmem =>
    written_eq_meaning (h segment hmem) args (isDigits_of_mem body hmem)

/-- Without arguments, only numbers in braces that are out of range go unnoticed. -/
lemma overflowing_of_substitute (h : substitute body [] = reference body []) :
    ∀ segment ∈ segments body, segment.Regular ∨ segment.Overflowing := by
  intro segment hmem
  by_contra hnot
  rw [not_or] at hnot
  have hlt : ∀ {piece}, piece ∈ segments body → ¬ piece.Regular → ¬ piece.Overflowing →
      total body.length (piece.meaning []) < total body.length (piece.written []) :=
    fun hpiece => total_lt (length_source_le hpiece) (isDigits_of_mem body hpiece)
  have hle : ∀ piece ∈ segments body,
      total body.length (piece.meaning []) ≤ total body.length (piece.written []) := by
    intro piece hpiece
    by_cases hregular : piece.Regular
    · exact (congrArg _ (written_eq_meaning hregular [] (isDigits_of_mem body hpiece)).symm).le
    · by_cases hover : piece.Overflowing
      · exact (congrArg _ (overflowing_nil hover).symm).le
      · exact (hlt hpiece hregular hover).le
  have hsum := List.sum_lt_sum _ _ hle ⟨segment, hmem, hlt hmem hnot.1 hnot.2⟩
  rw [← total_flatMap, ← total_flatMap, ← reference, ← h, ← substitute_eq_written] at hsum
  exact absurd hsum (lt_irrefl _)

/-- A body that is always expanded as it is meant has regular pieces only. -/
lemma regular_of_substitute (h : ∀ args, substitute body args = reference body args) :
    ∀ segment ∈ segments body, segment.Regular := by
  intro segment hmem
  by_contra hregular
  have hover := overflowing_of_substitute (h [])
  have hlt : ∀ {piece}, piece ∈ segments body → piece.Overflowing →
      (piece.meaning [List.replicate (body.length + 1) 'z']).length <
        (piece.written [List.replicate (body.length + 1) 'z']).length :=
    fun hpiece hpieceOver => length_lt hpieceOver (length_source_le hpiece)
  have hle : ∀ piece ∈ segments body,
      (piece.meaning [List.replicate (body.length + 1) 'z']).length ≤
        (piece.written [List.replicate (body.length + 1) 'z']).length := by
    intro piece hpiece
    rcases hover piece hpiece with hpieceRegular | hpieceOver
    · exact (congrArg _
        (written_eq_meaning hpieceRegular _ (isDigits_of_mem body hpiece)).symm).le
    · exact (hlt hpiece hpieceOver).le
  have hsum := List.sum_lt_sum _ _ hle
    ⟨segment, hmem, hlt hmem ((hover segment hmem).resolve_left hregular)⟩
  have hlength := congrArg List.length (h [List.replicate (body.length + 1) 'z'])
  rw [substitute_eq_written, reference, List.length_flatMap, List.length_flatMap] at hlength
  omega

/-! ### Numbers with and without braces -/

section Braces

lemma notMem_digits {c : Char} (h : isDigits digits = true) (hc : c.isDigit = false) :
    c ∉ digits := fun hmem => by
  rw [List.all_eq_true.1 (isDigits_iff.1 h).2 c hmem] at hc
  cases hc

lemma segments_number (h : isDigits digits = true) : segments ('$' :: digits) = [.number digits] := by
  have hat : segmentAt digits = some (.number digits) := by
    have htake : digits.takeWhile Char.isDigit = digits :=
      List.takeWhile_eq_self_iff.2 (List.all_eq_true.1 (isDigits_iff.1 h).2)
    unfold segmentAt
    split
    · exact absurd List.mem_cons_self (notMem_digits h (by decide))
    · exact absurd List.mem_cons_self (notMem_digits h (by decide))
    · rw [htake, if_pos (isDigits_iff.1 h).1]
  rw [segments, segmentsFrom, if_pos rfl, hat]
  dsimp only
  rw [segmentsFrom_skip, Segment.source_number, List.length_cons, Nat.add_sub_cancel,
    List.drop_length]
  rfl

lemma segments_verbatim (h : '}' ∉ inner) : segments (verbatim inner) = [.group inner] := by
  have hat : segmentAt ('{' :: (inner ++ ['}'])) = some (.group inner) := by
    rw [segmentAt, splitOnce_append h]
    rfl
  have hshape : verbatim inner = '$' :: '{' :: (inner ++ ['}']) := rfl
  rw [hshape, segments, segmentsFrom, if_pos rfl, hat]
  dsimp only
  rw [segmentsFrom_skip, Segment.source_group, length_verbatim, List.drop_of_length_le]
  · rfl
  · rw [List.length_cons, List.length_append, List.length_singleton]
    omega

/-- Braces around a number change nothing exactly if the machine has it. -/
lemma substitute_braces_iff (h : isDigits digits = true) :
    (∀ args, substitute ('$' :: digits) args = substitute (verbatim digits) args) ↔
      decimalValue digits < 2 ^ 64 := by
  have hall : ¬ (digits = ['@'] ∨ digits = argumentsWord) := fun hall => by
    rw [not_isDigits_all hall] at h
    cases h
  have hbare : splitOnce ':' digits = none := splitOnce_eq_none.2 (notMem_digits h (by decide))
  have hnumber : ∀ args, substitute ('$' :: digits) args = (Segment.number digits).written args :=
    fun args => by rw [substitute_eq_written, segments_number h, List.flatMap_singleton]
  have hgroup : ∀ args, substitute (verbatim digits) args =
      positional args ((parseUsize digits).getD 0) := fun args => by
    have hwritten : (Segment.group digits).written args = braced digits args := rfl
    rw [substitute_eq_written, segments_verbatim (notMem_digits h (by decide)),
      List.flatMap_singleton, hwritten, braced_bare hbare, if_pos (.inr (.inr h)), targetValue,
      if_neg hall]
  constructor
  · intro heq
    by_contra hbig
    have hempty := heq []
    rw [hnumber, hgroup, positional_nil, Segment.written, parseUsize_digits h, if_neg hbig] at hempty
    cases hempty
  · intro hlt args
    rw [hnumber, hgroup, Segment.written, parseUsize_digits h, if_pos hlt]
    rfl

end Braces

end Rupi.Template
