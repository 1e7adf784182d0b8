import Mathlib.Tactic

/-!
Reading letters as symbols, with a mark in place of what is no symbol.

- `Code`: words of letters that stand for symbols; no letter inside a word begins one.
- `decode`: the symbols of a list of letters; `decode_append`, `isPrefix_decode`.
- `decode_pieces_iff`: decoding piece by piece gives the same exactly if no piece ends inside a
  word.
-/

namespace Replacing

variable {β γ : Type*}

/-- What a letter between words is. -/
inductive Lead (γ : Type*) where
  | symbol (c : γ)
  | opens
  | bad

/-- A code whose words are read letter by letter. -/
structure Code (β γ : Type*) where
  lead : β → Lead γ
  /-- The word begun goes on with this letter. -/
  goesOn : List β → β → Bool
  /-- The symbol of a word that is complete. -/
  symbol : List β → Option γ
  mark : γ
  goesOn_nil : ∀ b, goesOn [] b = false
  lead_of_goesOn : ∀ word b, goesOn word b = true → lead b = .bad

variable (C : Code β γ)

/-- The mark for a word that is not complete. -/
def flush (word : List β) : List γ := if word.isEmpty then [] else [C.mark]

/-- One letter: what it adds, and the word that is open behind it. -/
def step (word : List β) (b : β) : List γ × List β :=
  if C.goesOn word b then
    match C.symbol (word ++ [b]) with
    | some c => ([c], [])
    | none => ([], word ++ [b])
  else
    match C.lead b with
    | .symbol c => (flush C word ++ [c], [])
    | .opens => (flush C word, [b])
    | .bad => (flush C word ++ [C.mark], [])

/-- Every letter in turn. -/
def read : List β → List β → List γ × List β
  | word, [] => ([], word)
  | word, b :: rest => ((step C word b).1 ++ (read (step C word b).2 rest).1,
      (read (step C word b).2 rest).2)

/-- The symbols from an open word on. -/
def decodeFrom (word letters : List β) : List γ :=
  (read C word letters).1 ++ flush C (read C word letters).2

/-- The symbols of a list of letters. -/
def decode (letters : List β) : List γ := decodeFrom C [] letters

/-- The word that is open at the end. -/
def openWord (letters : List β) : List β := (read C [] letters).2

/-- A word goes on from the one list into the other. -/
def Straddles (front back : List β) : Prop :=
  ∃ b ∈ back.head?, C.goesOn (openWord C front) b = true

instance (front back : List β) : Decidable (Straddles C front back) := by
  unfold Straddles
  cases back.head? with
  | none => exact isFalse (by simp)
  | some b => exact decidable_of_iff (C.goesOn (openWord C front) b = true) (by simp)

/-- No piece ends inside a word. -/
def Aligned : List (List β) → Prop
  | [] => True
  | piece :: pieces => ¬ Straddles C piece pieces.flatten ∧ Aligned pieces

variable {C} {word front back letters : List β} {b : β}

@[simp] lemma flush_nil : flush C [] = [] := rfl

lemma length_flush_le (word : List β) : (flush C word).length ≤ 1 := by
  rw [flush]
  split_ifs <;> simp

lemma step_of_not_goesOn (h : C.goesOn word b = false) :
    step C word b = (flush C word ++ (step C [] b).1, (step C [] b).2) := by
  rw [step, step, if_neg (by simp [h]), if_neg (by simp [C.goesOn_nil])]
  cases C.lead b <;> simp

/-- A letter inside a word is no symbol on its own. -/
lemma step_nil_of_goesOn (h : C.goesOn word b = true) : step C [] b = ([C.mark], []) := by
  rw [step, if_neg (by simp [C.goesOn_nil]), C.lead_of_goesOn word b h]
  rfl

lemma read_append (word front back : List β) :
    read C word (front ++ back) = ((read C word front).1 ++ (read C (read C word front).2 back).1,
      (read C (read C word front).2 back).2) := by
  induction front generalizing word with
  | nil => rfl
  | cons b front ih => simp [read, ih]

lemma decodeFrom_cons (word : List β) (b : β) (letters : List β) :
    decodeFrom C word (b :: letters) =
      (step C word b).1 ++ decodeFrom C (step C word b).2 letters := by
  simp [decodeFrom, read]

/-- What is read in front is read whatever follows. -/
lemma decode_append (front back : List β) :
    decode C (front ++ back) = (read C [] front).1 ++ decodeFrom C (openWord C front) back := by
  simp [decode, decodeFrom, read_append, openWord]

/-- **Behind a word that does not go on, the decoding starts afresh.** -/
lemma decodeFrom_of_not_goesOn (h : ∀ b ∈ back.head?, C.goesOn word b = false) :
    decodeFrom C word back = flush C word ++ decode C back := by
  cases back with
  | nil => simp [decodeFrom, decode, read]
  | cons b back =>
    rw [decode, decodeFrom_cons, decodeFrom_cons, step_of_not_goesOn (h b rfl)]
    simp

/-- **A cut between words does not show.** -/
lemma decode_append_of_not_straddles (h : ¬ Straddles C front back) :
    decode C (front ++ back) = decode C front ++ decode C back := by
  have hnone : ∀ b ∈ back.head?, C.goesOn (openWord C front) b = false := fun b hb => by
    by_contra hgoes
    exact h ⟨b, hb, by simpa using hgoes⟩
  rw [decode_append, decodeFrom_of_not_goesOn hnone, ← List.append_assoc]
  rfl

/-- An open word saves at most its mark. -/
lemma length_decodeFrom_le (word letters : List β) :
    (decodeFrom C word letters).length ≤ (flush C word).length + (decode C letters).length := by
  induction letters generalizing word with
  | nil => simp [decodeFrom, decode, read]
  | cons b letters ih =>
    cases hgoes : C.goesOn word b with
    | false =>
      rw [decodeFrom_of_not_goesOn (by simpa using hgoes), List.length_append]
    | true =>
      have hne : word ≠ [] := fun hnil => by
        rw [hnil, C.goesOn_nil] at hgoes
        cases hgoes
      have hflush : (flush C word).length = 1 := by simp [flush, hne]
      have hstep := ih (step C word b).2
      have hopen := length_flush_le (C := C) (step C word b).2
      have hadds : (step C word b).1.length + (flush C (step C word b).2).length ≤ 1 := by
        rw [step, if_pos hgoes]
        cases C.symbol (word ++ [b]) <;> simp [flush]
      rw [decode, decodeFrom_cons, decodeFrom_cons, step_nil_of_goesOn hgoes, hflush]
      simp only [List.length_append, List.length_singleton]
      have hrest : (decodeFrom C [] letters).length = (decode C letters).length := rfl
      omega

/-- A cut inside a word shows as a longer text. -/
lemma length_decode_lt_of_straddles (h : Straddles C front back) :
    (decode C (front ++ back)).length < (decode C front).length + (decode C back).length := by
  obtain ⟨b, hb, hgoes⟩ := h
  obtain ⟨letters, rfl⟩ : ∃ letters, back = b :: letters := by
    cases back with
    | nil => simp at hb
    | cons x letters =>
      obtain rfl : x = b := by simpa using hb
      exact ⟨letters, rfl⟩
  have hne : openWord C front ≠ [] := fun hnil => by
    rw [hnil, C.goesOn_nil] at hgoes
    cases hgoes
  have hflush : (flush C (openWord C front)).length = 1 := by simp [flush, hne]
  have hfront : (decode C front).length =
      (read C [] front).1.length + (flush C (openWord C front)).length := by
    simp [decode, decodeFrom, openWord]
  have hadds : (step C (openWord C front) b).1.length +
      (flush C (step C (openWord C front) b).2).length ≤ 1 := by
    rw [step, if_pos hgoes]
    cases C.symbol (openWord C front ++ [b]) <;> simp [flush]
  have hrest := length_decodeFrom_le (C := C) (step C (openWord C front) b).2 letters
  have hback : (decode C (b :: letters)).length = 1 + (decode C letters).length := by
    rw [decode, decodeFrom_cons, step_nil_of_goesOn hgoes]
    simp [decode, Nat.add_comm]
  rw [decode_append, decodeFrom_cons, hback, hfront, hflush]
  simp only [List.length_append]
  omega

lemma length_decode_append_le (front back : List β) :
    (decode C (front ++ back)).length ≤ (decode C front).length + (decode C back).length := by
  by_cases h : Straddles C front back
  · exact (length_decode_lt_of_straddles h).le
  · rw [decode_append_of_not_straddles h, List.length_append]

lemma length_decode_flatten_le (pieces : List (List β)) :
    (decode C pieces.flatten).length ≤ (pieces.flatMap (decode C)).length := by
  induction pieces with
  | nil => simp [decode, decodeFrom, read]
  | cons piece pieces ih =>
    rw [List.flatten_cons, List.flatMap_cons, List.length_append]
    exact (length_decode_append_le piece pieces.flatten).trans (by omega)

/-- **Piece by piece the decoding is the same exactly if no piece ends inside a word.** -/
theorem decode_pieces_iff (pieces : List (List β)) :
    pieces.flatMap (decode C) = decode C pieces.flatten ↔ Aligned C pieces := by
  induction pieces with
  | nil => simp [decode, decodeFrom, read, Aligned]
  | cons piece pieces ih =>
    rw [List.flatten_cons, List.flatMap_cons, Aligned, ← ih]
    constructor
    · intro heq
      have hlength := congrArg List.length heq
      rw [List.length_append] at hlength
      have hrest := length_decode_flatten_le (C := C) pieces
      have hcut : ¬ Straddles C piece pieces.flatten := fun hstraddles => by
        have hlt := length_decode_lt_of_straddles hstraddles
        omega
      rw [decode_append_of_not_straddles hcut, List.append_cancel_left_eq] at heq
      exact ⟨hcut, heq⟩
    · rintro ⟨hcut, heq⟩
      rw [decode_append_of_not_straddles hcut, heq]

end Replacing
