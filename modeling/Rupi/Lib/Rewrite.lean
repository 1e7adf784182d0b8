import Mathlib.Tactic

/-!
Left-to-right rewriting of a text, as a list of pieces.

A rewriting pass reads a text once and either keeps a symbol or swaps a whole
span for a mark. The list of pieces is the whole of what the pass decides: the
text it returns and the number of swaps are read off it.

- `Pieces.input`, `Pieces.output`, `Pieces.swaps`: what a piece list consumed,
  what it returns, and how many spans it swapped.
- `Rewriting`: a pass whose pieces always consume exactly the text.
- `Rewriting.RespectsChunks`: the pass recognises in a concatenation the spans
  it recognises in the chunks.
- `Rewriting.apply_flatten`: such a pass commutes with concatenation.
- `applyAll`, `applyAll_flatten`: the same for passes run one after the other.
- `Scanner`: a pass given by what it recognises at one position of the text.
- `Rewriting.Shows`, `applyAll_eq_or_mem`: when every mark shows a symbol, a text
  is either left alone or shows it.
-/

namespace Rewrite

variable {α : Type*}

/-- One decision of a pass: keep a symbol, or swap a span for a mark. -/
inductive Piece (α : Type*) where
  | keep (a : α)
  | swap (span mark : List α)
  deriving DecidableEq, Repr

namespace Piece

/-- The text a piece consumes. -/
def input : Piece α → List α
  | keep a => [a]
  | swap span _ => span

/-- The text a piece leaves behind. -/
def output : Piece α → List α
  | keep a => [a]
  | swap _ mark => mark

/-- Whether a piece replaced something. -/
def isSwap : Piece α → Bool
  | keep _ => false
  | swap _ _ => true

@[simp] lemma input_keep (a : α) : (keep a).input = [a] := rfl
@[simp] lemma input_swap (span mark : List α) : (swap span mark).input = span := rfl
@[simp] lemma output_keep (a : α) : (keep a).output = [a] := rfl
@[simp] lemma output_swap (span mark : List α) : (swap span mark).output = mark := rfl

end Piece

/-! ### Piece lists -/

/-- The text a piece list consumed. -/
def input (pieces : List (Piece α)) : List α := pieces.flatMap Piece.input

/-- The text a piece list returns. -/
def output (pieces : List (Piece α)) : List α := pieces.flatMap Piece.output

/-- How many spans a piece list swapped. -/
def swaps (pieces : List (Piece α)) : Nat := pieces.countP Piece.isSwap

/-- Keep a run of symbols as it stands. -/
def kept (text : List α) : List (Piece α) := text.map Piece.keep

@[simp] lemma input_nil : input ([] : List (Piece α)) = [] := rfl
@[simp] lemma output_nil : output ([] : List (Piece α)) = [] := rfl

@[simp] lemma input_cons (p : Piece α) (ps : List (Piece α)) :
    input (p :: ps) = p.input ++ input ps := rfl

@[simp] lemma output_cons (p : Piece α) (ps : List (Piece α)) :
    output (p :: ps) = p.output ++ output ps := rfl

@[simp] lemma input_append (ps qs : List (Piece α)) : input (ps ++ qs) = input ps ++ input qs := by
  simp [input]

@[simp] lemma output_append (ps qs : List (Piece α)) :
    output (ps ++ qs) = output ps ++ output qs := by
  simp [output]

@[simp] lemma input_kept (text : List α) : input (kept text) = text := by
  induction text with
  | nil => rfl
  | cons a text ih => simpa [kept, input] using ih

@[simp] lemma output_kept (text : List α) : output (kept text) = text := by
  induction text with
  | nil => rfl
  | cons a text ih => simpa [kept, output] using ih

@[simp] lemma swap_notMem_kept (text span mark : List α) : Piece.swap span mark ∉ kept text := by
  simp [kept]

lemma output_flatten (pss : List (List (Piece α))) :
    output pss.flatten = (pss.map output).flatten := by
  induction pss with
  | nil => rfl
  | cons ps pss ih => simp [ih]

/-! ### Passes -/

/-- A rewriting pass: its pieces account for every symbol of the text. -/
structure Rewriting (α : Type*) where
  /-- The pieces of a text. -/
  pieces : List α → List (Piece α)
  /-- No symbol is lost or read twice. -/
  input_pieces : ∀ text, input (pieces text) = text

namespace Rewriting

/-- The rewritten text. -/
def apply (r : Rewriting α) (text : List α) : List α := output (r.pieces text)

/-- The pass recognises in a concatenation exactly the spans it recognises in
the chunks: none straddles a cut, and none is recognised only because the text
around it was cut off. -/
def RespectsChunks (r : Rewriting α) (chunks : List (List α)) : Prop :=
  r.pieces chunks.flatten = (chunks.map r.pieces).flatten

/-- A pass that respects the chunks commutes with their concatenation. -/
theorem apply_flatten {r : Rewriting α} {chunks : List (List α)} (h : r.RespectsChunks chunks) :
    r.apply chunks.flatten = (chunks.map r.apply).flatten := by
  have hout : output (r.pieces chunks.flatten) = output (chunks.map r.pieces).flatten :=
    congrArg output h
  rw [output_flatten, List.map_map] at hout
  exact hout

/-- A pass that finds nothing to swap returns the text unchanged. -/
lemma apply_eq_self {r : Rewriting α} {text : List α} (h : r.pieces text = kept text) :
    r.apply text = text := by
  rw [apply, h, output_kept]

/-- A text in which nothing is swapped is the run of its kept symbols. -/
lemma pieces_eq_kept {r : Rewriting α} {text : List α} (h : swaps (r.pieces text) = 0) :
    r.pieces text = kept text := by
  have hall : ∀ ps : List (Piece α), swaps ps = 0 → ps = kept (input ps) := by
    intro ps
    induction ps with
    | nil => intro _; rfl
    | cons p ps ih =>
      intro hps
      cases p with
      | keep a =>
        have hrest : swaps ps = 0 := by simpa [swaps, Piece.isSwap] using hps
        simpa [kept] using ih hrest
      | swap span mark => simp [swaps, Piece.isSwap] at hps
  rw [hall _ h, r.input_pieces]

end Rewriting

/-! ### Passes run one after the other -/

/-- Run passes in order, each on the text the one before it returned. -/
def applyAll (passes : List (Rewriting α)) (text : List α) : List α :=
  passes.foldl (fun text r => r.apply text) text

/-- How many spans the passes swapped, each on the text the one before returned. -/
def swapsAll : List (Rewriting α) → List α → Nat
  | [], _ => 0
  | r :: passes, text => swaps (r.pieces text) + swapsAll passes (r.apply text)

/-- Every pass respects the chunks as the passes before it left them. -/
def RespectChunks : List (Rewriting α) → List (List α) → Prop
  | [], _ => True
  | r :: passes, chunks => r.RespectsChunks chunks ∧ RespectChunks passes (chunks.map r.apply)

instance [DecidableEq α] (r : Rewriting α) (chunks : List (List α)) :
    Decidable (r.RespectsChunks chunks) :=
  inferInstanceAs (Decidable (_ = _))

instance decidableRespectChunks [DecidableEq α] :
    ∀ (passes : List (Rewriting α)) (chunks : List (List α)),
      Decidable (RespectChunks passes chunks)
  | [], _ => isTrue trivial
  | r :: passes, chunks =>
    have := decidableRespectChunks passes (chunks.map r.apply)
    inferInstanceAs (Decidable (_ ∧ _))

@[simp] lemma applyAll_nil (text : List α) : applyAll [] text = text := rfl

@[simp] lemma applyAll_cons (r : Rewriting α) (passes : List (Rewriting α)) (text : List α) :
    applyAll (r :: passes) text = applyAll passes (r.apply text) := rfl

/-- Passes that respect the chunks commute with their concatenation. -/
theorem applyAll_flatten {passes : List (Rewriting α)} {chunks : List (List α)}
    (h : RespectChunks passes chunks) :
    applyAll passes chunks.flatten = (chunks.map (applyAll passes)).flatten := by
  induction passes generalizing chunks with
  | nil =>
    have hid : applyAll ([] : List (Rewriting α)) = id := rfl
    rw [hid, List.map_id, id]
  | cons r passes ih =>
    obtain ⟨hr, hrest⟩ := h
    rw [applyAll_cons, Rewriting.apply_flatten hr, ih hrest, List.map_map]
    rfl

/-! ### Marks that show -/

/-- Every mark of the pass shows the symbol. -/
def Rewriting.Shows (r : Rewriting α) (a : α) : Prop :=
  ∀ text span mark, Piece.swap span mark ∈ r.pieces text → a ∈ mark

lemma output_eq_input_or_mem {a : α} {pieces : List (Piece α)}
    (h : ∀ span mark, Piece.swap span mark ∈ pieces → a ∈ mark) :
    output pieces = input pieces ∨ a ∈ output pieces := by
  induction pieces with
  | nil => exact .inl rfl
  | cons p ps ih =>
    have hrest := ih fun span mark hmem => h span mark (List.mem_cons_of_mem _ hmem)
    cases p with
    | keep b =>
      rcases hrest with heq | hmem
      · exact .inl (by simp [heq])
      · exact .inr (by simp [hmem])
    | swap span mark =>
      exact .inr (by simp [h span mark List.mem_cons_self])

lemma Rewriting.apply_eq_or_mem {r : Rewriting α} {a : α} (h : r.Shows a) (text : List α) :
    r.apply text = text ∨ a ∈ r.apply text := by
  have hout := output_eq_input_or_mem (h text)
  rwa [r.input_pieces] at hout

/-- Passes whose marks all show a symbol leave a text alone or show it. -/
theorem applyAll_eq_or_mem {passes : List (Rewriting α)} {a : α} (h : ∀ r ∈ passes, r.Shows a)
    (text : List α) : applyAll passes text = text ∨ a ∈ applyAll passes text := by
  induction passes generalizing text with
  | nil => exact .inl rfl
  | cons r passes ih =>
    have hr : r.Shows a := h r List.mem_cons_self
    have hrest := ih (fun q hq => h q (List.mem_cons_of_mem _ hq)) (r.apply text)
    rw [applyAll_cons]
    rcases hrest with heq | hmem
    · rw [heq]
      exact Rewriting.apply_eq_or_mem hr text
    · exact .inr hmem

/-! ### Scanners -/

/-- What a scanner recognises at a position: `lead` symbols that stay, and the
span behind them with the mark it is swapped for, if one is. -/
structure Hit (α : Type*) where
  lead : Nat
  swap : Option (Nat × List α)

/-- How many symbols a hit accounts for. -/
def Hit.length (hit : Hit α) : Nat := hit.lead + (hit.swap.map Prod.fst).getD 0

/-- The pieces of a hit on the text it was found at. -/
def Hit.pieces (hit : Hit α) (text : List α) : List (Piece α) :=
  kept (text.take hit.lead) ++
    (hit.swap.map fun swap => Piece.swap ((text.drop hit.lead).take swap.1) swap.2).toList

lemma Hit.input_pieces (hit : Hit α) (text : List α) :
    input (hit.pieces text) = text.take hit.length := by
  rcases hit with ⟨lead, _ | ⟨span, mark⟩⟩
  · simp [Hit.pieces, Hit.length]
  · simp [Hit.pieces, Hit.length, List.take_add]

/-- A pass that reads a text from left to right with a state: at each position
either a hit is found, which the scanner passes over before it starts afresh, or
one symbol stays and the state follows it. -/
structure Scanner (σ α : Type*) where
  start : σ
  hit : σ → List α → Option (Hit α)
  follow : σ → α → σ
  /-- A hit reads at least one symbol, and none behind the end of the text. -/
  hit_length : ∀ {q text h}, hit q text = some h → 0 < h.length ∧ h.length ≤ text.length

namespace Scanner

variable {σ : Type*}

/-- The pieces of a text. `skip` counts the symbols of the last hit that are
still to be passed over. -/
def pieces (s : Scanner σ α) : σ → Nat → List α → List (Piece α)
  | _, _, [] => []
  | q, skip + 1, _ :: text => s.pieces q skip text
  | q, 0, c :: text =>
    match s.hit q (c :: text) with
    | some h => h.pieces (c :: text) ++ s.pieces s.start (h.length - 1) text
    | none => .keep c :: s.pieces (s.follow q c) 0 text

lemma input_pieces (s : Scanner σ α) (q : σ) (skip : Nat) (text : List α)
    (hskip : skip ≤ text.length) : input (s.pieces q skip text) = text.drop skip := by
  induction text generalizing q skip with
  | nil => simp [pieces]
  | cons c text ih =>
    cases skip with
    | succ skip => simpa [pieces] using ih q skip (by simpa using hskip)
    | zero =>
      cases hhit : s.hit q (c :: text) with
      | none =>
        have hrest := ih (s.follow q c) 0 (Nat.zero_le _)
        simp [pieces, hhit, hrest]
      | some h =>
        obtain ⟨hpos, hlen⟩ := s.hit_length hhit
        obtain ⟨n, hn⟩ : ∃ n, h.length = n + 1 := ⟨h.length - 1, by omega⟩
        have hle : n ≤ text.length := by
          rw [hn, List.length_cons] at hlen
          omega
        have hrest := ih s.start n hle
        simp only [pieces, hhit, input_append, Hit.input_pieces, hn, Nat.add_sub_cancel, hrest]
        simp

/-- The pass of a scanner, from its starting state. -/
def rewriting (s : Scanner σ α) : Rewriting α where
  pieces := s.pieces s.start 0
  input_pieces text := by simpa using s.input_pieces s.start 0 text (Nat.zero_le _)

/-- A scanner whose hits all show a symbol is a pass that does. -/
lemma rewriting_shows {s : Scanner σ α} {a : α}
    (h : ∀ q text hit, s.hit q text = some hit → ∀ swap ∈ hit.swap, a ∈ swap.2) :
    s.rewriting.Shows a := by
  have hpieces : ∀ text q skip span mark, Piece.swap span mark ∈ s.pieces q skip text →
      a ∈ mark := by
    intro text
    induction text with
    | nil => intro q skip span mark hmem; simp [pieces] at hmem
    | cons c text ih =>
      intro q skip span mark hmem
      cases skip with
      | succ skip => exact ih q skip span mark (by simpa [pieces] using hmem)
      | zero =>
        cases hhit : s.hit q (c :: text) with
        | none =>
          simp only [pieces, hhit, List.mem_cons, reduceCtorEq, false_or] at hmem
          exact ih _ _ span mark hmem
        | some hit =>
          simp only [pieces, hhit, List.mem_append] at hmem
          rcases hmem with hmem | hmem
          · obtain ⟨lead, swap⟩ := hit
            cases swap with
            | none =>
              simp only [Hit.pieces, Option.map_none, Option.toList_none, List.append_nil] at hmem
              exact absurd hmem (swap_notMem_kept _ _ _)
            | some swap =>
              have hmark : mark = swap.2 := by
                simp only [Hit.pieces, Option.map_some, Option.toList_some, List.mem_append,
                  swap_notMem_kept, List.mem_singleton, Piece.swap.injEq, false_or] at hmem
                exact hmem.2
              rw [hmark]
              exact h q _ _ hhit swap rfl
          · exact ih _ _ span mark hmem
  exact fun text span mark hmem => hpieces text _ _ span mark hmem

end Scanner

end Rewrite
