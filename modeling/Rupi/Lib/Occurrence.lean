import Mathlib.Data.List.DropRight
import Rupi.Lib.Rewrite

/-!
Where a word occurs in a text, and what becomes of it when the matches of the word
are replaced.

- `StartsAt`: the word starts at a position; matches may overlap.
- `Leftmost`: a cutter of texts into kept symbols and swapped matches, leftmost and
  without overlaps; `matches_ind` is its induction.
- `swaps_eq_zero_iff`, `cut_of_swaps_succ`: what the number of swaps says about the text.
- `swaps_window`: only the text around a place decides how often the word is swapped
  there.
- `gaps`, `respells`: the text between the matches, and whether the marks spell the word
  anew; `infix_output_iff`.
-/

namespace Occurrence

open Rewrite

variable {α : Type*} {word mark text : List α}

/-! ### Positions -/

/-- The word starts at position `i` of the text. -/
def StartsAt (word text : List α) (i : Nat) : Prop := word <+: text.drop i

lemma StartsAt.length_le {i : Nat} (h : StartsAt word text i) (hne : word ≠ []) :
    i + word.length ≤ text.length := by
  have hle := List.IsPrefix.length_le h
  have hpos := List.length_pos_of_ne_nil hne
  rw [List.length_drop] at hle
  omega

/-- A word occurs exactly if it starts somewhere. -/
lemma infix_iff_startsAt : word <:+: text ↔ ∃ i, StartsAt word text i := by
  constructor
  · rintro ⟨before, after, rfl⟩
    exact ⟨before.length, by simp [StartsAt]⟩
  · rintro ⟨i, h⟩
    exact h.isInfix.trans (List.drop_suffix i text).isInfix

lemma startsAt_append_right (before : List α) {i : Nat} :
    StartsAt word (before ++ text) (before.length + i) ↔ StartsAt word text i := by
  rw [StartsAt, StartsAt, List.drop_length_add_append]

/-- An occurrence that ends inside the front part is one of the front part. -/
lemma startsAt_append_left (after : List α) {i : Nat} (h : i + word.length ≤ text.length) :
    StartsAt word (text ++ after) i ↔ StartsAt word text i := by
  have hi : i ≤ text.length := by omega
  rw [StartsAt, StartsAt, List.drop_append_of_le_length hi]
  constructor
  · intro hpre
    refine List.prefix_of_prefix_length_le hpre (List.prefix_append _ _) ?_
    rw [List.length_drop]
    omega
  · exact fun hpre => hpre.trans (List.prefix_append _ _)

/-- What the last symbols of a text are too few to spell begins before them. -/
lemma infix_append_window (hne : word ≠ []) (a b : List α) :
    word <:+: a ++ b ↔ word <:+: a ∨ word <:+: a.rtake (word.length - 1) ++ b := by
  have hpos := List.length_pos_of_ne_nil hne
  have hlast : a.rtake (word.length - 1) <:+ a := List.drop_suffix _ _
  constructor
  · intro h
    rcases List.infix_append_iff_ne_nil.mp h with h | h | ⟨l, r, hl, hr, rfl, hsuf, hpre⟩
    · exact .inl h
    · exact .inr (List.infix_append_of_infix_right h)
    · refine .inr (List.infix_append_iff.mpr (.inr (.inr ⟨l, r, rfl, ?_, hpre⟩)))
      have hrpos := List.length_pos_of_ne_nil hr
      refine List.suffix_of_suffix_length_le hsuf hlast ?_
      have hle := hsuf.length_le
      rw [List.rtake, List.length_drop]
      rw [List.length_append]
      omega
  · rintro (h | h)
    · exact List.infix_append_of_infix_left h
    · obtain ⟨front, hfront⟩ := hlast
      refine h.trans ⟨front, [], ?_⟩
      rw [List.append_nil, ← List.append_assoc, hfront]

/-- What the first symbols of a text are too few to spell begins in it. -/
lemma infix_append_take (hne : word ≠ []) (a b : List α) :
    word <:+: a ++ b ↔ word <:+: a ++ b.take (word.length - 1) ∨ word <:+: b := by
  constructor
  · intro h
    rcases List.infix_append_iff_ne_nil.mp h with h | h | ⟨l, r, hl, hr, rfl, hsuf, hpre⟩
    · exact .inl (List.infix_append_of_infix_left h)
    · exact .inr h
    · refine .inl (List.infix_append_iff.mpr (.inr (.inr ⟨l, r, rfl, hsuf, ?_⟩)))
      have hlpos := List.length_pos_of_ne_nil hl
      refine List.prefix_of_prefix_length_le hpre (List.take_prefix _ _) ?_
      have hle := hpre.length_le
      rw [List.length_take, List.length_append]
      omega
  · rintro (⟨front, back, h⟩ | h)
    · refine ⟨front, back ++ b.drop (word.length - 1), ?_⟩
      rw [← List.append_assoc, h, List.append_assoc, List.take_append_drop]
    · exact List.infix_append_of_infix_right h

lemma rtake_rtake_append (n : Nat) (a b : List α) :
    (a.rtake n ++ b).rtake n = (a ++ b).rtake n := by
  simp only [List.rtake_eq_reverse_take_reverse, List.reverse_append, List.reverse_reverse,
    List.take_append, List.take_take]
  congr 3
  omega

/-! ### Cutting at the matches -/

/-- A cutter that swaps the matches of a word for a mark: the leftmost one first, and
the search goes on behind it. -/
structure Leftmost (word mark : List α) (cut : List α → List (Piece α)) : Prop where
  ne_nil : word ≠ []
  nil : cut [] = []
  hit : ∀ rest, cut (word ++ rest) = .swap word mark :: cut rest
  miss : ∀ a rest, ¬ word <+: a :: rest → cut (a :: rest) = .keep a :: cut rest

/-- Induction along the search for a word. -/
@[elab_as_elim]
theorem matches_ind (hne : word ≠ []) {P : List α → Prop} (nil : P [])
    (hit : ∀ rest, P rest → P (word ++ rest))
    (miss : ∀ a rest, ¬ word <+: a :: rest → P rest → P (a :: rest)) (text : List α) :
    P text := by
  induction hlen : text.length using Nat.strong_induction_on generalizing text with
  | h n ih =>
    subst hlen
    cases text with
    | nil => exact nil
    | cons a rest =>
      by_cases hpre : word <+: a :: rest
      · obtain ⟨after, hafter⟩ := hpre
        have hpos := List.length_pos_of_ne_nil hne
        have hlt : after.length < (a :: rest).length := by
          rw [← hafter, List.length_append]
          omega
        rw [← hafter]
        exact hit after (ih _ hlt after rfl)
      · exact miss a rest hpre (ih _ (by simp) rest rfl)

@[simp] lemma swaps_nil : swaps ([] : List (Piece α)) = 0 := rfl

@[simp] lemma swaps_keep (a : α) (ps : List (Piece α)) : swaps (.keep a :: ps) = swaps ps :=
  List.countP_cons_of_neg Bool.false_ne_true

@[simp] lemma swaps_swap (span mark : List α) (ps : List (Piece α)) :
    swaps (.swap span mark :: ps) = swaps ps + 1 :=
  List.countP_cons_of_pos rfl

lemma swaps_kept_append (kept : List α) (ps : List (Piece α)) :
    swaps (Rewrite.kept kept ++ ps) = swaps ps := by
  induction kept with
  | nil => rfl
  | cons a kept ih =>
    simp only [Rewrite.kept, List.map_cons, List.cons_append, swaps_keep] at ih ⊢
    exact ih

namespace Leftmost

variable {cut : List α → List (Piece α)}

/-- Nothing is swapped exactly if the word does not occur. -/
theorem swaps_eq_zero_iff (h : Leftmost word mark cut) (text : List α) :
    swaps (cut text) = 0 ↔ ¬ word <:+: text := by
  induction text using matches_ind h.ne_nil with
  | nil => simp [h.nil, h.ne_nil]
  | hit rest ih =>
    rw [h.hit, swaps_swap]
    simp [(List.prefix_append word rest).isInfix]
  | miss a rest hpre ih =>
    rw [h.miss a rest hpre, swaps_keep, ih, List.infix_cons_iff]
    simp [hpre]

/-- A front in which no match begins is kept as it stands. -/
lemma cut_append (h : Leftmost word mark cut) {front text : List α}
    (hclear : ∀ i < front.length, ¬ StartsAt word (front ++ text) i) :
    cut (front ++ text) = kept front ++ cut text := by
  induction front with
  | nil => rfl
  | cons a front ih =>
    have hfirst : ¬ word <+: a :: (front ++ text) := hclear 0 (by simp)
    have hrest := ih fun i hi hstart => hclear (i + 1) (by simpa using hi) hstart
    rw [List.cons_append, h.miss _ _ hfirst, hrest]
    rfl

/-- A text without the word is kept as it stands. -/
lemma cut_of_notInfix (h : Leftmost word mark cut) {text : List α} (hword : ¬ word <:+: text) :
    cut text = kept text := by
  have hclear : ∀ i < text.length, ¬ StartsAt word (text ++ []) i := by
    intro i _ hstart
    rw [List.append_nil] at hstart
    exact hword (infix_iff_startsAt.mpr ⟨i, hstart⟩)
  have hcut := h.cut_append hclear
  rwa [List.append_nil, h.nil, List.append_nil] at hcut

/-- The mark has no say in how often the word is swapped. -/
lemma swaps_congr {mark' : List α} {cut' : List α → List (Piece α)}
    (h : Leftmost word mark cut) (h' : Leftmost word mark' cut') (text : List α) :
    swaps (cut text) = swaps (cut' text) := by
  induction text using matches_ind h.ne_nil with
  | nil => rw [h.nil, h'.nil, swaps_nil]
  | hit rest ih => rw [h.hit, h'.hit, swaps_swap, swaps_swap, ih]
  | miss a rest hpre ih => rw [h.miss a rest hpre, h'.miss a rest hpre, swaps_keep, swaps_keep, ih]

/-- With something swapped, the text divides at the leftmost match. -/
theorem cut_of_swaps_succ (h : Leftmost word mark cut) {text : List α} {n : Nat}
    (hswaps : swaps (cut text) = n + 1) :
    ∃ before after, text = before ++ (word ++ after) ∧
      cut text = kept before ++ .swap word mark :: cut after ∧ swaps (cut after) = n ∧
      ∀ i < before.length, ¬ StartsAt word text i := by
  induction text using matches_ind h.ne_nil with
  | nil => simp [h.nil] at hswaps
  | hit rest ih =>
    rw [h.hit, swaps_swap] at hswaps
    exact ⟨[], rest, rfl, h.hit rest, by omega, by simp⟩
  | miss a rest hpre ih =>
    have hcut := h.miss a rest hpre
    rw [hcut, swaps_keep] at hswaps
    obtain ⟨before, after, rfl, hkept, hn, hclear⟩ := ih hswaps
    refine ⟨a :: before, after, rfl, ?_, hn, ?_⟩
    · rw [hcut, hkept]
      rfl
    · intro i hi
      cases i with
      | zero => exact hpre
      | succ i => exact hclear i (by simpa using hi)

/-- A back in which no match ends does not count. -/
lemma swaps_append (h : Leftmost word mark cut) {text back : List α}
    (hclear : ∀ i, StartsAt word (text ++ back) i → i + word.length ≤ text.length) :
    swaps (cut (text ++ back)) = swaps (cut text) := by
  have hpos := List.length_pos_of_ne_nil h.ne_nil
  induction text using matches_ind h.ne_nil with
  | nil =>
    rw [h.nil, List.nil_append, swaps_nil, h.swaps_eq_zero_iff, infix_iff_startsAt]
    rintro ⟨i, hi⟩
    have hle := hclear i hi
    rw [List.length_nil] at hle
    omega
  | hit rest ih =>
    have hrest := ih fun i hi => by
      have hle := hclear (word.length + i) (by
        rw [List.append_assoc]
        exact (startsAt_append_right word).mpr hi)
      rw [List.length_append] at hle
      omega
    rw [List.append_assoc, h.hit, h.hit, swaps_swap, swaps_swap, hrest]
  | miss a rest hpre ih =>
    have hrest := ih fun i hi => by
      have hle := hclear (i + 1) hi
      rw [List.length_cons] at hle
      omega
    have hpre' : ¬ word <+: a :: (rest ++ back) := by
      intro hstart
      have hle := hclear 0 hstart
      exact hpre ((startsAt_append_left back hle).mp hstart)
    rw [List.cons_append, h.miss _ _ hpre', h.miss _ _ hpre, swaps_keep, swaps_keep, hrest]

/-- Between two texts without the word, only the middle with the symbols next to it
decides how often the word is swapped. -/
theorem swaps_window (h : Leftmost word mark cut) {before middle after : List α}
    (hbefore : ¬ word <:+: before) (hafter : ¬ word <:+: after) :
    swaps (cut (before ++ (middle ++ after))) =
      swaps (cut (before.rtake (word.length - 1) ++
        (middle ++ after.take (word.length - 1)))) := by
  have hpos := List.length_pos_of_ne_nil h.ne_nil
  have hsplit : before = before.take (before.length - (word.length - 1)) ++
      before.rtake (word.length - 1) := (List.take_append_drop _ _).symm
  have hfront : swaps (cut (before ++ (middle ++ after))) =
      swaps (cut (before.rtake (word.length - 1) ++ (middle ++ after))) := by
    conv_lhs => rw [hsplit, List.append_assoc]
    rw [h.cut_append, swaps_kept_append]
    intro i hi hstart
    rw [← List.append_assoc, ← hsplit] at hstart
    rw [List.length_take] at hi
    have hle : i + word.length ≤ before.length := by omega
    exact hbefore (infix_iff_startsAt.mpr ⟨i, (startsAt_append_left _ hle).mp hstart⟩)
  rw [hfront]
  conv_lhs => rw [← List.take_append_drop (word.length - 1) after]
  rw [← List.append_assoc middle, ← List.append_assoc (before.rtake _)]
  apply h.swaps_append
  intro i hstart
  by_contra hlt
  rw [List.append_assoc, List.append_assoc, List.take_append_drop] at hstart
  have hend := hstart.length_le h.ne_nil
  simp only [List.length_append, List.length_take] at hlt hend
  have hbehind : (before.rtake (word.length - 1) ++ middle).length ≤ i := by
    rw [List.length_append]
    omega
  obtain ⟨j, rfl⟩ := Nat.exists_eq_add_of_le hbehind
  rw [← List.append_assoc] at hstart
  exact hafter (infix_iff_startsAt.mpr ⟨j, (startsAt_append_right _).mp hstart⟩)

end Leftmost

/-! ### The text between the matches -/

/-- The text in front of the first swap, and the text behind each swap up to the next. -/
def gaps : List (Piece α) → List α × List (List α)
  | [] => ([], [])
  | .keep a :: ps => (a :: (gaps ps).1, (gaps ps).2)
  | .swap _ _ :: ps => ([], (gaps ps).1 :: (gaps ps).2)

lemma gaps_kept (front : List α) (ps : List (Piece α)) :
    gaps (kept front ++ ps) = (front ++ (gaps ps).1, (gaps ps).2) := by
  induction front with
  | nil => rfl
  | cons a front ih =>
    have hcons : gaps (kept (a :: front) ++ ps) =
        (a :: (gaps (kept front ++ ps)).1, (gaps (kept front ++ ps)).2) := rfl
    rw [hcons, ih]
    rfl

/-- The gaps, each behind a mark, are the text a cutter leaves. -/
lemma Leftmost.output_cut {cut : List α → List (Piece α)} (h : Leftmost word mark cut)
    (text : List α) :
    output (cut text) = (gaps (cut text)).1 ++ (gaps (cut text)).2.flatMap (mark ++ ·) := by
  induction text using matches_ind h.ne_nil with
  | nil => simp [h.nil, gaps]
  | hit rest ih => simp [h.hit, gaps, ih]
  | miss a rest hpre ih => simp [h.miss a rest hpre, gaps, ih]

/-- No gap in front of a match holds the word. -/
lemma Leftmost.notInfix_gaps {cut : List α → List (Piece α)} (h : Leftmost word mark cut)
    (text : List α) : ¬ word <:+: (gaps (cut text)).1 := by
  have hprefix : ∀ text, (gaps (cut text)).1 <+: text := by
    intro text
    induction text using matches_ind h.ne_nil with
    | nil => simp [h.nil, gaps]
    | hit rest ih => simp [h.hit, gaps]
    | miss a rest hpre ih => simpa [h.miss a rest hpre, gaps] using ih
  induction text using matches_ind h.ne_nil with
  | nil => simp [h.nil, gaps, h.ne_nil]
  | hit rest ih => simp [h.hit, gaps, h.ne_nil]
  | miss a rest hpre ih =>
    have hcut := h.miss a rest hpre
    have hfirst := hprefix (a :: rest)
    rw [hcut] at hfirst ⊢
    rw [gaps, List.infix_cons_iff]
    rintro (hword | hword)
    · exact hpre (hword.trans hfirst)
    · exact ih hword

/-- Read from left to right, a mark spells the word with what stands next to it: with
the last symbols read before it, `run`, and with the gap behind it. -/
def respells (contains : List α → Bool) (width : Nat) (mark : List α) :
    List α → List (List α) → Bool
  | _, [] => false
  | run, gap :: gaps =>
    contains (run ++ (mark ++ gap)) ||
      respells contains width mark ((run ++ (mark ++ gap)).rtake width) gaps

/-- A text and its gaps hold the word exactly if the text does or a mark spells it. -/
lemma infix_flatMap_iff (hne : word ≠ []) {contains : List α → Bool}
    (hcontains : ∀ text, contains text = true ↔ word <:+: text) (run : List α)
    (gaps : List (List α)) :
    word <:+: run ++ gaps.flatMap (mark ++ ·) ↔
      word <:+: run ∨
        respells contains (word.length - 1) mark (run.rtake (word.length - 1)) gaps = true := by
  induction gaps generalizing run with
  | nil => simp [respells]
  | cons gap gaps ih =>
    have hstep := ih (run ++ (mark ++ gap))
    rw [List.flatMap_cons, ← List.append_assoc, hstep, infix_append_window hne,
      respells, Bool.or_eq_true, hcontains, rtake_rtake_append, or_assoc]

/-- The text a cutter leaves holds the word exactly if a mark spells it anew. -/
theorem Leftmost.infix_output_iff {cut : List α → List (Piece α)} (h : Leftmost word mark cut)
    {contains : List α → Bool} (hcontains : ∀ text, contains text = true ↔ word <:+: text)
    (text : List α) :
    word <:+: output (cut text) ↔
      respells contains (word.length - 1) mark ((gaps (cut text)).1.rtake (word.length - 1))
        (gaps (cut text)).2 = true := by
  rw [h.output_cut, infix_flatMap_iff h.ne_nil hcontains]
  simp [h.notInfix_gaps text]

end Occurrence
