import Rupi.Core.Text
import Rupi.Core.Digits

/-!
Arguments of a prompt template.

- `substitute`: the scan of a body, which expands what it finds behind a dollar sign.
- `Segment`, `segments`: a body is literal text and the placeholders in it.
- `Placeholder`, `reference`: the grammar of placeholders, and what a body means by it.
- `substitute_eq_written`: the scan writes the segments of the body one by one.
-/

namespace Rupi.Template

/-- `args.join(" ")`. -/
def join (args : List (List Char)) : List Char := [' '].intercalate args

/-- The word `ARGUMENTS`. -/
def argumentsWord : List Char := ['A', 'R', 'G', 'U', 'M', 'E', 'N', 'T', 'S']

/-! ### The scan -/

/-- Numbers of type `usize`. -/
def parseUsize (text : List Char) : Option ℕ := parseUnsigned (2 ^ 64) text

def isDigits (text : List Char) : Bool := !text.isEmpty && text.all Char.isDigit

/-- `is_word_byte`. -/
def isWord : Option Char → Bool
  | some c => c.isAlphanum || c = '_'
  | none => false

/-- `verbatim`. -/
def verbatim (inner : List Char) : List Char := '$' :: '{' :: inner ++ ['}']

/-- `positional`: position `index`, 1-indexed. A position nothing was supplied for is empty. -/
def positional (args : List (List Char)) (index : ℕ) : List Char := args[index - 1]?.getD []

/-- The numbers of `slice_from`. -/
def sliceNumbers (spec : List Char) : Option (ℕ × Option ℕ) := do
  let (start, length) := match splitOnce ':' spec with
    | some (start, length) => (start, some length)
    | none => (spec, none)
  let start ← (parseUsize start).filter (0 < ·)
  match length with
  | some length => return (start, some (← parseUsize length))
  | none => return (start, none)

/-- The arguments from a position on, or some of them. -/
def sliced (args : List (List Char)) : ℕ × Option ℕ → List Char
  | (start, some length) => join ((args.drop (start - 1)).take length)
  | (start, none) => join (args.drop (start - 1))

/-- `slice_from`. -/
def sliceFrom (args : List (List Char)) (spec : List Char) : Option (List Char) :=
  (sliceNumbers spec).map (sliced args)

/-- `braced`: the inside of braces. -/
def braced (inner : List Char) (args : List (List Char)) : List Char :=
  let (target, spec) := match splitOnce ':' inner with
    | some (target, spec) => (target, some spec)
    | none => (inner, none)
  let all := target = ['@'] ∨ target = argumentsWord
  if ¬ all ∧ isDigits target = false then verbatim inner
  else
    let value := if all then join args else positional args ((parseUsize target).getD 0)
    match spec with
    | none => value
    | some ('-' :: default) => if value = [] then default else value
    | some spec => if all then (sliceFrom args spec).getD (verbatim inner) else verbatim inner

/-- `expand_at`: what is written for the text behind a dollar sign, and how much of it is read. -/
def expandAt (args : List (List Char)) (text : List Char) : Option (List Char × ℕ) :=
  match text with
  | '{' :: body => (splitOnce '}' body).map fun (inner, _) => (braced inner args, inner.length + 2)
  | '@' :: _ => some (join args, 1)
  | _ =>
    let digits := text.takeWhile Char.isDigit
    if digits ≠ [] then
      (parseUsize digits).map fun index => (positional args index, digits.length)
    else if argumentsWord <+: text ∧ isWord text[9]? = false then some (join args, 9)
    else none

/-- The scan from a place on, of which the next `skip` symbols are read already. -/
def substituteFrom (args : List (List Char)) : ℕ → List Char → List Char
  | _, [] => []
  | skip + 1, _ :: rest => substituteFrom args skip rest
  | 0, c :: rest =>
    if c = '$' then
      match expandAt args rest with
      | some (replacement, read) => replacement ++ substituteFrom args read rest
      | none => c :: substituteFrom args 0 rest
    else c :: substituteFrom args 0 rest

/-- `substitute`. -/
def substitute (body : List Char) (args : List (List Char)) : List Char :=
  substituteFrom args 0 body

/-! ### The grammar -/

/-- A piece of a body. A group in braces ends at the first closing brace. -/
inductive Segment where
  | text (c : Char)
  | number (digits : List Char)
  | all
  | arguments
  | group (inner : List Char)
  deriving DecidableEq, Repr

namespace Segment

/-- The text of a piece. -/
def source : Segment → List Char
  | text c => [c]
  | number digits => '$' :: digits
  | all => ['$', '@']
  | arguments => '$' :: argumentsWord
  | group inner => verbatim inner

end Segment

@[simp] lemma Segment.source_number (digits : List Char) :
    (number digits).source = '$' :: digits := rfl

@[simp] lemma Segment.source_group (inner : List Char) : (group inner).source = verbatim inner := rfl

lemma length_verbatim (inner : List Char) : (verbatim inner).length = inner.length + 3 := by
  rw [verbatim, List.length_append, List.length_cons, List.length_cons, List.length_singleton]

/-- The piece that a dollar sign begins: the longest number, the word by itself, a group. -/
def segmentAt (text : List Char) : Option Segment :=
  match text with
  | '{' :: body => (splitOnce '}' body).map fun (inner, _) => .group inner
  | '@' :: _ => some .all
  | _ =>
    if text.takeWhile Char.isDigit ≠ [] then some (.number (text.takeWhile Char.isDigit))
    else if argumentsWord <+: text ∧ isWord text[9]? = false then some .arguments
    else none

def segmentsFrom : ℕ → List Char → List Segment
  | _, [] => []
  | skip + 1, _ :: rest => segmentsFrom skip rest
  | 0, c :: rest =>
    if c = '$' then
      match segmentAt rest with
      | some segment => segment :: segmentsFrom (segment.source.length - 1) rest
      | none => .text c :: segmentsFrom 0 rest
    else .text c :: segmentsFrom 0 rest

/-- The pieces of a body, from the left. -/
def segments (body : List Char) : List Segment := segmentsFrom 0 body

/-- What a placeholder stands for: one argument, all of them, either with a default, or some. -/
inductive Placeholder where
  | position (n : ℕ)
  | all
  | orDefault (value : Placeholder) (default : List Char)
  | slice (start : ℕ) (length : Option ℕ)
  deriving DecidableEq, Repr

namespace Placeholder

/-- Its value: a position that there is not is empty, and a default replaces an empty value. -/
def value (args : List (List Char)) : Placeholder → List Char
  | position n => args[n - 1]?.getD []
  | all => join args
  | orDefault placeholder default =>
    if placeholder.value args = [] then default else placeholder.value args
  | slice start length => sliced args (start, length)

/-- A decimal number from 1 on, of any length. -/
def readPosition (text : List Char) : Option ℕ := (parseDigits text).filter (0 < ·)

/-- `N` or `N:L`. -/
def readSlice (spec : List Char) : Option (ℕ × Option ℕ) :=
  match splitOnce ':' spec with
  | none => (readPosition spec).map (·, none)
  | some (start, length) =>
    match readPosition start, parseDigits length with
    | some start, some length => some (start, some length)
    | _, _ => none

/-- What a default can be given for. -/
def readTarget (text : List Char) : Option Placeholder :=
  if text = ['@'] ∨ text = argumentsWord then some all
  else (readPosition text).map position

/-- `N`, `x:-default`, `@:N` or `@:N:L`. -/
def ofGroup (inner : List Char) : Option Placeholder :=
  match splitOnce ':' inner with
  | none => (readPosition inner).map position
  | some (target, '-' :: default) => (readTarget target).map (orDefault · default)
  | some (target, spec) =>
    if target = ['@'] then (readSlice spec).map fun (start, length) => slice start length
    else none

/-- The placeholder that a piece is. -/
def ofSegment : Segment → Option Placeholder
  | .text _ => none
  | .number digits => (readPosition digits).map position
  | .all | .arguments => some all
  | .group inner => ofGroup inner

end Placeholder

/-- What a piece means: the value of a placeholder, and its text if it is none. -/
def Segment.meaning (args : List (List Char)) (segment : Segment) : List Char :=
  match Placeholder.ofSegment segment with
  | some placeholder => placeholder.value args
  | none => segment.source

/-- What a body means. Values are written as they are and not read again. -/
def reference (body : List Char) (args : List (List Char)) : List Char :=
  (segments body).flatMap (·.meaning args)

/-! ### The scan writes the pieces -/

section Written

variable {args : List (List Char)} {body text digits : List Char} {segment : Segment}

/-- What the scan writes for a piece. -/
def Segment.written (args : List (List Char)) : Segment → List Char
  | .text c => [c]
  | .number digits => ((parseUsize digits).map (positional args)).getD ('$' :: digits)
  | .all | .arguments => join args
  | .group inner => braced inner args

lemma substituteFrom_skip (skip : ℕ) (text : List Char) :
    substituteFrom args skip text = substituteFrom args 0 (text.drop skip) := by
  induction text generalizing skip with
  | nil => cases skip <;> simp [substituteFrom]
  | cons c rest ih =>
    cases skip with
    | zero => rfl
    | succ skip => rw [substituteFrom, ih, List.drop_succ_cons]

lemma segmentsFrom_skip (skip : ℕ) (text : List Char) :
    segmentsFrom skip text = segments (text.drop skip) := by
  induction text generalizing skip with
  | nil => cases skip <;> simp [segmentsFrom, segments]
  | cons c rest ih =>
    cases skip with
    | zero => rfl
    | succ skip => rw [segmentsFrom, ih, List.drop_succ_cons]

/-- Text without a dollar sign is copied. -/
lemma substituteFrom_plain (h : '$' ∉ text) :
    substituteFrom args 0 (text ++ body) = text ++ substituteFrom args 0 body := by
  induction text with
  | nil => rfl
  | cons c text ih =>
    rw [List.mem_cons, not_or] at h
    rw [List.cons_append, substituteFrom, if_neg (Ne.symm h.1), ih h.2, List.cons_append]

/-- The scan and the grammar see the same pieces; a number that is out of range is not expanded. -/
lemma expandAt_eq (text : List Char) : expandAt args text =
    (segmentAt text).bind fun segment => match segment with
      | .number digits => (parseUsize digits).map fun index => (positional args index, digits.length)
      | segment => some (segment.written args, segment.source.length - 1) := by
  unfold expandAt segmentAt
  split
  · rename_i inner
    cases splitOnce '}' inner with
    | none => rfl
    | some parts =>
      rw [Option.map_some, Option.map_some, Option.bind_some]
      dsimp only
      rw [Segment.source_group, length_verbatim]
      rfl
  · rfl
  · dsimp only
    split_ifs with hdigits hword
    · rw [Option.bind_some]
    · rw [Option.bind_some]
      rfl
    · rw [Option.bind_none]

/-- A piece stands at the beginning of the text, and a number is one. -/
lemma segmentAt_spec (h : segmentAt text = some segment) :
    (∃ rest, '$' :: text = segment.source ++ rest) ∧ ∀ digits, segment = .number digits →
      digits ≠ [] ∧ digits.all Char.isDigit = true := by
  unfold segmentAt at h
  split at h
  · rename_i inner
    obtain ⟨⟨before, after⟩, hsplit, rfl⟩ := Option.map_eq_some_iff.1 h
    obtain ⟨rfl, -⟩ := splitOnce_eq_some hsplit
    refine ⟨⟨after, ?_⟩, fun digits heq => by cases heq⟩
    rw [Segment.source_group, verbatim, List.append_assoc]
    rfl
  · obtain rfl := Option.some.inj h
    exact ⟨⟨_, rfl⟩, fun digits heq => by cases heq⟩
  · split_ifs at h with hdigits hword
    · obtain rfl := Option.some.inj h
      refine ⟨⟨text.dropWhile Char.isDigit, ?_⟩, ?_⟩
      · rw [Segment.source_number, List.cons_append, List.takeWhile_append_dropWhile]
      · rintro digits ⟨⟩
        exact ⟨hdigits, List.all_eq_true.2 fun c hc => List.mem_takeWhile_imp hc⟩
    · obtain rfl := Option.some.inj h
      obtain ⟨⟨rest, hrest⟩, -⟩ := hword
      exact ⟨⟨rest, by rw [← hrest]; rfl⟩, fun digits heq => by cases heq⟩

/-- Behind a piece that is written, both go on where it ends. -/
lemma written_append (rest : List Char) (segment : Segment)
    (hlater : substituteFrom args 0 (rest.drop (segment.source.length - 1)) =
      (segments (rest.drop (segment.source.length - 1))).flatMap (·.written args)) :
    segment.written args ++ substituteFrom args (segment.source.length - 1) rest =
      (segment :: segmentsFrom (segment.source.length - 1) rest).flatMap (·.written args) := by
  rw [substituteFrom_skip, hlater, segmentsFrom_skip, List.flatMap_cons]

/-- **The scan writes the pieces of the body one by one.** -/
theorem substitute_eq_written (body : List Char) (args : List (List Char)) :
    substitute body args = (segments body).flatMap (·.written args) := by
  induction hlength : body.length using Nat.strong_induction_on generalizing body with
  | _ length ih =>
  cases body with
  | nil => rfl
  | cons c rest =>
    have hlater : ∀ read, substituteFrom args 0 (rest.drop read) =
        (segments (rest.drop read)).flatMap (·.written args) := fun read =>
      ih (rest.drop read).length (by rw [← hlength, List.length_drop, List.length_cons]; omega)
        (rest.drop read) rfl
    have hrest : substituteFrom args 0 rest = (segments rest).flatMap (·.written args) := hlater 0
    rw [substitute, segments, substituteFrom, segmentsFrom]
    split_ifs with hdollar
    · subst hdollar
      rw [expandAt_eq]
      cases hsegment : segmentAt rest with
      | none =>
        rw [Option.bind_none, List.flatMap_cons, ← segments, ← hrest]
        rfl
      | some segment =>
        rw [Option.bind_some]
        obtain ⟨⟨after, hafter⟩, hdigits⟩ := segmentAt_spec hsegment
        cases segment with
        | number digits =>
          have hread : (Segment.number digits).source.length - 1 = digits.length := by simp
          dsimp only
          cases hvalue : parseUsize digits with
          | some index =>
            have hwritten : (Segment.number digits).written args = positional args index := by
              rw [Segment.written, hvalue]
              rfl
            rw [Option.map_some, ← hread, ← hwritten]
            exact written_append rest _ (hlater _)
          | none =>
            -- The digits of a number that is out of range are copied one by one.
            have hwritten : (Segment.number digits).written args = '$' :: digits := by
              rw [Segment.written, hvalue]
              rfl
            obtain rfl : rest = digits ++ after := (List.cons.inj hafter).2
            have hplain : '$' ∉ digits := fun hmem =>
              absurd (List.all_eq_true.1 (hdigits digits rfl).2 _ hmem) (by decide)
            have hskip := hlater digits.length
            rw [List.drop_left] at hskip
            rw [Option.map_none, hread, List.flatMap_cons, segmentsFrom_skip, List.drop_left,
              ← hskip, hwritten]
            dsimp only
            rw [substituteFrom_plain hplain]
            rfl
        | text _ => exact written_append rest _ (hlater _)
        | all => exact written_append rest _ (hlater _)
        | arguments => exact written_append rest _ (hlater _)
        | group _ => exact written_append rest _ (hlater _)
    · rw [List.flatMap_cons, ← segments, ← hrest]
      rfl

/-- The texts of the pieces are the body, and the numbers among them are numbers. -/
lemma segments_spec (body : List Char) : (segments body).flatMap Segment.source = body ∧
    ∀ digits, .number digits ∈ segments body → digits ≠ [] ∧ digits.all Char.isDigit = true := by
  induction hlength : body.length using Nat.strong_induction_on generalizing body with
  | _ length ih =>
  cases body with
  | nil => exact ⟨rfl, fun _ hmem => absurd hmem List.not_mem_nil⟩
  | cons c rest =>
    have hlater : ∀ read, (segments (rest.drop read)).flatMap Segment.source = rest.drop read ∧
        ∀ digits, .number digits ∈ segments (rest.drop read) →
          digits ≠ [] ∧ digits.all Char.isDigit = true := fun read =>
      ih (rest.drop read).length (by rw [← hlength, List.length_drop, List.length_cons]; omega)
        (rest.drop read) rfl
    have hplain : (Segment.text c :: segmentsFrom 0 rest).flatMap Segment.source = c :: rest ∧
        ∀ digits, .number digits ∈ Segment.text c :: segmentsFrom 0 rest →
          digits ≠ [] ∧ digits.all Char.isDigit = true := by
      obtain ⟨htexts, hnumbers⟩ := hlater 0
      refine ⟨by rw [List.flatMap_cons]; exact congrArg (c :: ·) htexts, fun digits hmem => ?_⟩
      rcases List.mem_cons.1 hmem with heq | hmem
      · cases heq
      · exact hnumbers digits hmem
    rw [segments, segmentsFrom]
    split_ifs with hdollar
    · subst hdollar
      cases hsegment : segmentAt rest with
      | none => exact hplain
      | some segment =>
        obtain ⟨⟨after, hafter⟩, hdigits⟩ := segmentAt_spec hsegment
        obtain ⟨htexts, hnumbers⟩ := hlater (segment.source.length - 1)
        have hdrop : rest.drop (segment.source.length - 1) = after := by
          have hpos : 0 < segment.source.length := by cases segment <;> simp [Segment.source, verbatim]
          have htail := congrArg (List.drop segment.source.length) hafter
          rw [List.drop_left] at htail
          rw [← htail]
          obtain ⟨n, hn⟩ := Nat.exists_eq_succ_of_ne_zero hpos.ne'
          rw [hn, List.drop_succ_cons, Nat.succ_sub_one]
        refine ⟨?_, fun digits hmem => ?_⟩
        · dsimp only
          rw [List.flatMap_cons, segmentsFrom_skip, htexts, hdrop, ← hafter]
        · rcases List.mem_cons.1 hmem with heq | hmem
          · exact hdigits digits heq.symm
          · rw [segmentsFrom_skip] at hmem
            exact hnumbers digits hmem
    · exact hplain

end Written

end Rupi.Template
