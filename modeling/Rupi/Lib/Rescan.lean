import Rupi.Lib.Rewrite

/-!
Reading a rewritten text once more.

- `Swaps`: what holds of every span and its mark.
- `prefix_of_prefix_output`, `infix_of_infix_output`: a word that no mark takes part in was there
  before.
- `Scanner.result`: what a scanner leaves of a text, by its first symbol or its first hit.
- `Scanner.swaps_pieces`: what holds of the hits holds of the pieces.
-/

namespace Rewrite

variable {α : Type*}

/-! ### Runs of symbols -/

section Spans

variable {p : α → Bool} {front back text : List α}

/-- The symbols of one kind at the beginning of a text. -/
lemma takeWhile_span (hfront : ∀ a ∈ front, p a = true) (hback : ∀ a ∈ back.head?, p a = false) :
    (front ++ back).takeWhile p = front := by
  rw [List.takeWhile_append_of_pos hfront]
  cases back with
  | nil => simp
  | cons a back => simp [hback a rfl]

lemma exists_span (p : α → Bool) (text : List α) :
    ∃ front back, text = front ++ back ∧ (∀ a ∈ front, p a = true) ∧
      ∀ a ∈ back.head?, p a = false := by
  refine ⟨text.takeWhile p, text.dropWhile p, List.takeWhile_append_dropWhile.symm,
    fun a ha => List.all_eq_true.1 List.all_takeWhile a ha, fun a ha => ?_⟩
  have hhead := List.head?_dropWhile_not p text
  rwa [Option.mem_def.1 ha] at hhead

/-- Symbols of one kind that a text begins with are among the first run of them. -/
lemma length_le_takeWhile (hfront : ∀ a ∈ front, p a = true) (h : front <+: text) :
    front.length ≤ (text.takeWhile p).length := by
  obtain ⟨back, rfl⟩ := h
  rw [List.takeWhile_append_of_pos hfront]
  simp

end Spans

/-! ### Marks -/

/-- Every swap of a list of pieces is of this kind. -/
def Swaps (P : List α → List α → Prop) (pieces : List (Piece α)) : Prop :=
  ∀ span mark, Piece.swap span mark ∈ pieces → P span mark

variable {P Q : List α → List α → Prop} {pieces : List (Piece α)} {word : List α} {a : α}

lemma Swaps.imp (h : Swaps P pieces) (himp : ∀ span mark, P span mark → Q span mark) :
    Swaps Q pieces := fun span mark hmem => himp span mark (h span mark hmem)

lemma Swaps.tail {piece : Piece α} (h : Swaps P (piece :: pieces)) : Swaps P pieces :=
  fun span mark hmem => h span mark (List.mem_cons_of_mem _ hmem)

lemma Swaps.head {span mark : List α} (h : Swaps P (.swap span mark :: pieces)) : P span mark :=
  h span mark List.mem_cons_self

lemma swaps_append {more : List (Piece α)} (h : Swaps P pieces) (h' : Swaps P more) :
    Swaps P (pieces ++ more) := fun span mark hmem =>
  (List.mem_append.1 hmem).elim (h span mark) (h' span mark)

/-- A beginning of the output that does not reach into a mark is one of the input. -/
lemma prefix_of_prefix_output (h : Swaps (fun _ mark => mark.head? = some a) pieces)
    (hword : a ∉ word) (hfront : word <+: output pieces) : word <+: input pieces := by
  induction pieces generalizing word with
  | nil => exact hfront
  | cons piece pieces ih =>
    cases word with
    | nil => exact List.nil_prefix
    | cons b word =>
      obtain ⟨hne, htail⟩ : a ≠ b ∧ a ∉ word := by simpa using hword
      cases piece with
      | keep c =>
        rw [output_cons, Piece.output_keep, List.singleton_append, List.cons_prefix_cons] at hfront
        rw [input_cons, Piece.input_keep, List.singleton_append, List.cons_prefix_cons]
        exact ⟨hfront.1, ih h.tail htail hfront.2⟩
      | swap span mark =>
        obtain ⟨c, rest, hmark⟩ : ∃ c rest, mark = c :: rest := by
          have hhead := h.head
          cases mark with
          | nil => cases hhead
          | cons c rest => exact ⟨c, rest, rfl⟩
        have hhead := h.head
        rw [hmark] at hhead hfront
        rw [output_cons, Piece.output_swap, List.cons_append, List.cons_prefix_cons] at hfront
        exact absurd (Option.some.inj hhead).symm (hfront.1 ▸ hne)

/-- A symbol that no mark begins with was kept. -/
lemma exists_keep {b : α} {text : List α} (h : Swaps (fun _ mark => mark.head? = some a) pieces)
    (hout : output pieces = b :: text) (hne : b ≠ a) :
    ∃ rest, pieces = .keep b :: rest ∧ output rest = text := by
  cases pieces with
  | nil => cases hout
  | cons piece pieces =>
    cases piece with
    | keep c =>
      obtain ⟨rfl, rfl⟩ := List.cons.inj hout
      exact ⟨pieces, rfl, rfl⟩
    | swap span mark =>
      have hhead := h.head
      cases mark with
      | nil => cases hhead
      | cons c mark =>
        obtain rfl := Option.some.inj hhead
        exact absurd (List.cons.inj hout).1.symm hne

/-- A word behind a part that ends in a symbol the word does not have. -/
lemma infix_append_cases {mark rest : List α} {b : α} (hlast : mark.getLast? = some b)
    (hb : b ∉ word) (hmark : ¬ word <:+: mark) (h : word <:+: mark ++ rest) : word <:+: rest := by
  obtain ⟨front, back, heq⟩ := h
  rw [List.append_assoc] at heq
  rcases List.append_eq_append_iff.1 heq with ⟨inner, hfront, hword⟩ | ⟨inner, -, hrest⟩
  · rcases List.append_eq_append_iff.1 hword with ⟨later, hinner, -⟩ | ⟨later, hsplit, hrest⟩
    · exact absurd ⟨front, later, by rw [hfront, hinner, List.append_assoc]⟩ hmark
    · cases inner using List.reverseRecOn with
      | nil => exact ⟨[], back, by rw [hsplit, hrest]; simp⟩
      | append_singleton inner c =>
        rw [hfront, ← List.append_assoc, List.getLast?_concat] at hlast
        obtain rfl := Option.some.inj hlast
        exact absurd (by rw [hsplit]; simp) hb
  · exact ⟨inner, back, by rw [hrest, List.append_assoc]⟩

/-- A word that is in the output, while no mark has it and marks begin and end with symbols that it
does not have, is in the input. -/
lemma infix_of_infix_output
    (h : Swaps (fun _ mark => mark.head? = some a ∧ (∃ b, mark.getLast? = some b ∧ b ∉ word) ∧
      ¬ word <:+: mark) pieces)
    (hword : a ∉ word) (hoccurs : word <:+: output pieces) : word <:+: input pieces := by
  induction pieces with
  | nil => exact hoccurs
  | cons piece pieces ih =>
    cases piece with
    | keep c =>
      rw [output_cons, Piece.output_keep, List.singleton_append, List.infix_cons_iff] at hoccurs
      rcases hoccurs with hfront | hoccurs
      · have hbegins := h.imp fun _ _ hmark => hmark.1
        exact (prefix_of_prefix_output hbegins hword hfront).isInfix
      · exact (ih h.tail hoccurs).trans (List.suffix_append [c] _).isInfix
    | swap span mark =>
      obtain ⟨-, ⟨b, hlast, hb⟩, hmark⟩ := h.head
      exact (ih h.tail (infix_append_cases hlast hb hmark hoccurs)).trans
        (List.suffix_append span _).isInfix

/-! ### Scanners -/

namespace Scanner

variable {σ : Type*} (s : Scanner σ α)

/-- What a scanner leaves of a text. -/
def result (q : σ) (text : List α) : List α := output (s.pieces q 0 text)

variable {s} {q : σ} {c : α} {text : List α} {hit : Hit α}

lemma pieces_skip (q : σ) (n : Nat) (text : List α) :
    s.pieces q n text = s.pieces q 0 (text.drop n) := by
  induction text generalizing n with
  | nil => cases n <;> rfl
  | cons c text ih =>
    cases n with
    | zero => rfl
    | succ n =>
      rw [pieces, ih]
      rfl

@[simp] lemma result_nil (q : σ) : s.result q [] = [] := rfl

/-- A symbol at which nothing is recognised stays. -/
lemma result_cons (h : s.hit q (c :: text) = none) :
    s.result q (c :: text) = c :: s.result (s.follow q c) text := by
  rw [result, pieces, h]
  rfl

/-- A hit is passed over. -/
lemma result_of_hit (h : s.hit q text = some hit) :
    s.result q text = output (hit.pieces text) ++ s.result s.start (text.drop hit.length) := by
  cases text with
  | nil => exact absurd (s.hit_length h) (by simp; omega)
  | cons c text =>
    have hpos := (s.hit_length h).1
    rw [result, pieces, h, output_append, pieces_skip]
    obtain ⟨n, hn⟩ : ∃ n, hit.length = n + 1 := ⟨hit.length - 1, by omega⟩
    rw [hn]
    rfl

/-- A hit without a swap. -/
lemma result_of_lead {front back : List α}
    (h : s.hit q (front ++ back) = some ⟨front.length, none⟩) :
    s.result q (front ++ back) = front ++ s.result s.start back := by
  rw [result_of_hit h]
  simp [Hit.pieces, Hit.length]

/-- A hit with a swap behind what stays. -/
lemma result_of_swap {front span back mark : List α}
    (h : s.hit q (front ++ (span ++ back)) = some ⟨front.length, some (span.length, mark)⟩) :
    s.result q (front ++ (span ++ back)) = front ++ (mark ++ s.result s.start back) := by
  rw [result_of_hit h]
  simp [Hit.pieces, Hit.length]

lemma apply_rewriting (text : List α) : s.rewriting.apply text = s.result s.start text := rfl

/-- What holds of every hit with a swap holds of every swap. -/
lemma swaps_pieces {P : List α → List α → Prop}
    (h : ∀ q text hit, s.hit q text = some hit → ∀ swap ∈ hit.swap,
      P ((text.drop hit.lead).take swap.1) swap.2) (q : σ) (n : Nat) (text : List α) :
    Swaps P (s.pieces q n text) := by
  induction text generalizing q n with
  | nil => exact fun span mark hmem => by cases hmem
  | cons c text ih =>
    cases n with
    | succ n => exact ih q n
    | zero =>
      rw [pieces]
      cases hhit : s.hit q (c :: text) with
      | none =>
        intro span mark hmem
        rcases List.mem_cons.1 hmem with heq | hmem
        · cases heq
        · exact ih _ _ span mark hmem
      | some hit =>
        refine swaps_append (fun span mark hmem => ?_) (ih s.start _)
        rw [Hit.pieces, List.mem_append] at hmem
        rcases hmem with hmem | hmem
        · exact absurd hmem (swap_notMem_kept _ _ _)
        · obtain ⟨swap, hswap, heq⟩ : ∃ swap ∈ hit.swap,
              Piece.swap ((((c :: text).drop hit.lead).take swap.1)) swap.2 =
                Piece.swap span mark := by
            cases hswap : hit.swap with
            | none =>
              rw [hswap] at hmem
              cases hmem
            | some swap =>
              rw [hswap] at hmem
              exact ⟨swap, rfl, (List.mem_singleton.1 hmem).symm⟩
          injection heq with hspan hmark
          rw [← hspan, ← hmark]
          exact h q _ hit hhit swap hswap

lemma input_pieces_zero (q : σ) (text : List α) : input (s.pieces q 0 text) = text := by
  simpa using s.input_pieces q 0 text (Nat.zero_le _)

end Scanner

end Rewrite
