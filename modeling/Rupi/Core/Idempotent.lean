import Rupi.Core.SettledUrl
import Rupi.Core.Texts

/-!
A policy without literal and environment candidates leaves what it left.

- `KeyBlockFree`: a text without a line that opens a private key block.
- `keyBlockFree_result`, `KeyBlockFree.output`: the pass over key blocks leaves such a text, and the
  passes behind it keep it one.
- `RedactionPolicy.text_idem`: redacting a text twice.
- `RedactionPolicy.sanitize_idem`: redacting a tree twice.
-/

namespace Rupi

open Rewrite

/-! ### Lines -/

section Lines

variable {text line rest : List Char}

lemma splitInclusive_line (hline : '\n' ∉ line) (rest : List Char) :
    splitInclusive (line ++ '\n' :: rest) = (line ++ ['\n']) :: splitInclusive rest := by
  induction line with
  | nil => simp [splitInclusive]
  | cons c line ih =>
    obtain ⟨hne, hrest⟩ : '\n' ≠ c ∧ '\n' ∉ line := by simpa using hline
    rw [List.cons_append, splitInclusive, if_neg (Ne.symm hne), ih hrest]
    rfl

lemma splitInclusive_last (hline : '\n' ∉ line) (hne : line ≠ []) :
    splitInclusive line = [line] := by
  induction line with
  | nil => exact absurd rfl hne
  | cons c line ih =>
    obtain ⟨hc, hrest⟩ : '\n' ≠ c ∧ '\n' ∉ line := by simpa using hline
    rw [splitInclusive, if_neg (Ne.symm hc)]
    cases line with
    | nil => rfl
    | cons d line => rw [ih hrest (by simp)]

/-- A text is a line and what is behind it, or has no line break. -/
lemma exists_line (text : List Char) :
    '\n' ∉ text ∨ ∃ line rest, '\n' ∉ line ∧ text = line ++ '\n' :: rest := by
  obtain ⟨line, back, rfl, hline, hback⟩ := exists_span (· != '\n') text
  have hfree : '\n' ∉ line := fun hmem => by simpa using hline _ hmem
  cases back with
  | nil => exact .inl (by simpa using hfree)
  | cons c rest =>
    obtain rfl : c = '\n' := by simpa using hback c rfl
    exact .inr ⟨line, rest, hfree, rfl⟩

end Lines

/-! ### Private key blocks -/

/-- No line opens a private key block. -/
def KeyBlockFree (text : List Char) : Prop :=
  ∀ line ∈ splitInclusive text, opensKeyBlock line = false

section KeyBlocks

variable {text line rest : List Char} {pieces : List (Piece Char)}

lemma keyBlockFree_line (hline : '\n' ∉ line) : KeyBlockFree (line ++ '\n' :: rest) ↔
    opensKeyBlock (line ++ ['\n']) = false ∧ KeyBlockFree rest := by
  simp [KeyBlockFree, splitInclusive_line hline]

lemma keyBlockFree_last (hline : '\n' ∉ line) (hne : line ≠ []) :
    KeyBlockFree line ↔ opensKeyBlock line = false := by
  simp [KeyBlockFree, splitInclusive_last hline hne]

lemma keyBlockFree_nil : KeyBlockFree [] := by simp [KeyBlockFree, splitInclusive]

lemma keyBlockFree_keyBlockMark (h : KeyBlockFree rest) : KeyBlockFree (keyBlockMark ++ rest) := by
  have hmark : keyBlockMark ++ rest = marker .privateKey ++ '\n' :: rest := by simp [keyBlockMark]
  rw [hmark, keyBlockFree_line (by decide)]
  exact ⟨by decide, h⟩

/-- What the pass leaves has no line that opens a block. -/
lemma keyBlockFree_pieces (block : Option (List Char)) (text : List Char) :
    KeyBlockFree (output (privateKeyPieces block (splitInclusive text))) := by
  induction hn : text.length using Nat.strong_induction_on generalizing block text with
  | h n ih =>
    rcases exists_line text with hlast | ⟨line, rest, hline, rfl⟩
    · have hmark : KeyBlockFree keyBlockMark := by
        simpa using keyBlockFree_keyBlockMark keyBlockFree_nil
      by_cases hne : text = []
      · subst hne
        cases block with
        | none => exact keyBlockFree_nil
        | some block => simpa [splitInclusive, privateKeyPieces] using hmark
      · rw [splitInclusive_last hlast hne]
        cases block with
        | none =>
          rw [privateKeyPieces]
          split_ifs with hopens
          · simpa [privateKeyPieces] using hmark
          · have hclosed : opensKeyBlock text = false := by simpa using hopens
            simpa [privateKeyPieces] using (keyBlockFree_last hlast hne).2 hclosed
        | some block =>
          rw [privateKeyPieces]
          split_ifs <;> simpa [privateKeyPieces] using hmark
    · have hrest : ∀ block, KeyBlockFree (output (privateKeyPieces block (splitInclusive rest))) :=
        fun block => ih rest.length (by simp at hn; omega) block rest rfl
      rw [splitInclusive_line hline]
      cases block with
      | none =>
        rw [privateKeyPieces]
        split_ifs with hopens
        · exact hrest _
        · rw [output_append, output_kept, List.append_assoc, List.singleton_append,
            keyBlockFree_line hline]
          exact ⟨by simpa using hopens, hrest _⟩
      | some block =>
        rw [privateKeyPieces]
        split_ifs
        · exact keyBlockFree_keyBlockMark (hrest _)
        · exact hrest _

/-- Where no line opens a block, the pass leaves everything as it is. -/
lemma KeyBlockFree.apply_eq (h : KeyBlockFree text) : privateKeyPass.apply text = text := by
  have hlines : ∀ lines : List (List Char), (∀ line ∈ lines, opensKeyBlock line = false) →
      output (privateKeyPieces none lines) = lines.flatten := by
    intro lines
    induction lines with
    | nil => exact fun _ => rfl
    | cons line lines ih =>
      intro hlines
      have hopens := hlines line List.mem_cons_self
      have hrest := ih fun line hline => hlines line (List.mem_cons_of_mem _ hline)
      rw [privateKeyPieces, if_neg (by simp [hopens]), output_append, output_kept, hrest,
        List.flatten_cons]
  exact (hlines _ h).trans (flatten_splitInclusive text)

/-! ### Lines of a rewritten text -/

/-- What the passes behind this one may do to a line: they bring in no line break and no opening of
a block. -/
def LineSwap (span mark : List Char) : Prop :=
  '\n' ∉ span ∧ '\n' ∉ mark ∧ mark.head? = some '[' ∧
    (∃ b, mark.getLast? = some b ∧ b ∉ "PRIVATE KEY".toList) ∧
    ¬ "PRIVATE KEY".toList <:+: mark

/-- A beginning of the trimmed front, when it begins with no bracket. -/
lemma prefix_dropWhile_output {word : List Char} (h : Swaps LineSwap pieces) (hword : '[' ∉ word)
    (hne : word ≠ []) (hfront : word <+: (output pieces).dropWhile isWhitespace) :
    word <+: (input pieces).dropWhile isWhitespace := by
  have hhead : Swaps (fun _ mark => mark.head? = some '[') pieces := h.imp fun _ _ h => h.2.2.1
  induction pieces with
  | nil => exact hfront
  | cons piece pieces ih =>
    cases piece with
    | keep c =>
      rw [output_cons, Piece.output_keep, List.singleton_append, List.dropWhile_cons] at hfront
      rw [input_cons, Piece.input_keep, List.singleton_append, List.dropWhile_cons]
      split_ifs at hfront ⊢ with hc
      · exact ih h.tail hfront hhead.tail
      · exact prefix_of_prefix_output hhead hword hfront
    | swap span mark =>
      obtain ⟨-, -, hmark, -⟩ := h.head
      cases mark with
      | nil => cases hmark
      | cons c mark =>
        obtain rfl := Option.some.inj hmark
        rw [output_cons, Piece.output_swap, List.cons_append,
          List.dropWhile_cons_of_neg (by decide)] at hfront
        cases word with
        | nil => exact absurd rfl hne
        | cons d word =>
          obtain ⟨rfl, -⟩ := List.cons_prefix_cons.1 hfront
          exact absurd List.mem_cons_self hword

/-- Trimming the end keeps what ends in a symbol that is no blank. -/
lemma rdropWhile_append {word : List Char} {c : Char} (hlast : word.getLast? = some c)
    (hc : isWhitespace c = false) (back : List Char) :
    (word ++ back).rdropWhile isWhitespace = word ++ back.rdropWhile isWhitespace := by
  obtain ⟨front, rfl⟩ := List.getLast?_eq_some_iff.1 hlast
  induction back using List.reverseRecOn with
  | nil => simp [List.rdropWhile_concat_neg, hc]
  | append_singleton back d ih =>
    rw [← List.append_assoc]
    cases hd : isWhitespace d with
    | true => rw [List.rdropWhile_concat_pos _ _ _ hd, List.rdropWhile_concat_pos _ _ _ hd, ih]
    | false =>
      rw [List.rdropWhile_concat_neg _ _ _ (by simp [hd]),
        List.rdropWhile_concat_neg _ _ _ (by simp [hd]), List.append_assoc]

/-- Trimming the front keeps what begins with a symbol that is no blank. -/
lemma exists_dropWhile_append {word : List Char} {c : Char} (hhead : word.head? = some c)
    (hc : isWhitespace c = false) (front : List Char) :
    ∃ front', (front ++ word).dropWhile isWhitespace = front' ++ word := by
  induction front with
  | nil =>
    cases word with
    | nil => cases hhead
    | cons d word =>
      obtain rfl := Option.some.inj hhead
      exact ⟨[], by simp [List.dropWhile_cons_of_neg, hc]⟩
  | cons d front ih =>
    cases hd : isWhitespace d with
    | true => rwa [List.cons_append, List.dropWhile_cons_of_pos hd]
    | false =>
      exact ⟨d :: front, by rw [List.cons_append, List.dropWhile_cons_of_neg (by simp [hd])]⟩

/-- A line opens a block by its trimmed front and by a word in it. -/
lemma opensKeyBlock_iff : opensKeyBlock line = true ↔
    "-----BEGIN".toList <+: line.dropWhile isWhitespace ∧ "PRIVATE KEY".toList <:+: line := by
  rw [opensKeyBlock, Bool.and_eq_true, List.isPrefixOf_iff_prefix, containsText_iff, trimChars_eq]
  have hends : List.rdropWhile isWhitespace (line.dropWhile isWhitespace) <+:
      line.dropWhile isWhitespace := List.rdropWhile_prefix _ _
  constructor
  · rintro ⟨hbegins, hword⟩
    exact ⟨hbegins.trans hends,
      hword.trans (hends.isInfix.trans (List.dropWhile_suffix _).isInfix)⟩
  · rintro ⟨⟨rest, hrest⟩, front, back, hword⟩
    constructor
    · rw [← hrest, rdropWhile_append (c := 'N') rfl (by decide)]
      exact List.prefix_append _ _
    · obtain ⟨front', hfront⟩ :=
        @exists_dropWhile_append ("PRIVATE KEY".toList ++ back) 'P' rfl (by decide) front
      rw [← hword, List.append_assoc, hfront, ← List.append_assoc,
        rdropWhile_append (c := 'Y') (by simp) (by decide)]
      exact ⟨front', _, rfl⟩

/-- A line that opens a block once it is rewritten opened one before. -/
lemma opensKeyBlock_of_output (h : Swaps LineSwap pieces)
    (hopens : opensKeyBlock (output pieces) = true) : opensKeyBlock (input pieces) = true := by
  rw [opensKeyBlock_iff] at hopens ⊢
  exact ⟨prefix_dropWhile_output h (by decide) (by decide) hopens.1,
    infix_of_infix_output (h.imp fun _ _ h => h.2.2) (by decide) hopens.2⟩

/-- A rewriting that stays within lines goes line by line. -/
lemma exists_line_pieces (h : Swaps LineSwap pieces) :
    ('\n' ∉ input pieces ∧ '\n' ∉ output pieces) ∨ ∃ first later,
      pieces = first ++ .keep '\n' :: later ∧ '\n' ∉ input first ∧ '\n' ∉ output first := by
  induction pieces with
  | nil => exact .inl (by simp)
  | cons piece pieces ih =>
    by_cases hpiece : piece = .keep '\n'
    · exact .inr ⟨[], pieces, by rw [hpiece]; rfl, by simp, by simp⟩
    · have hfree : '\n' ∉ piece.input ∧ '\n' ∉ piece.output := by
        cases piece with
        | keep c =>
          have hne : '\n' ≠ c := fun heq => hpiece (by rw [heq])
          simpa using hne
        | swap span mark => exact ⟨h.head.1, h.head.2.1⟩
      rcases ih h.tail with ⟨hin, hout⟩ | ⟨first, later, rfl, hin, hout⟩
      · exact .inl ⟨by simpa using ⟨hfree.1, hin⟩, by simpa using ⟨hfree.2, hout⟩⟩
      · exact .inr ⟨piece :: first, later, rfl, by simpa using ⟨hfree.1, hin⟩,
          by simpa using ⟨hfree.2, hout⟩⟩

/-- The passes behind this one open no block. -/
lemma KeyBlockFree.output (h : Swaps LineSwap pieces) (hfree : KeyBlockFree (input pieces)) :
    KeyBlockFree (output pieces) := by
  induction hn : pieces.length using Nat.strong_induction_on generalizing pieces with
  | h n ih =>
    rcases exists_line_pieces h with ⟨hin, hout⟩ | ⟨first, later, rfl, hin, hout⟩
    · by_cases hne : Rewrite.output pieces = []
      · rw [hne]
        exact keyBlockFree_nil
      · rw [keyBlockFree_last hout hne, ← Bool.not_eq_true]
        intro hopens
        have hopened := opensKeyBlock_of_output h hopens
        by_cases hempty : input pieces = []
        · rw [hempty] at hopened
          exact absurd hopened (by decide)
        · rw [(keyBlockFree_last hin hempty).1 hfree] at hopened
          cases hopened
    · have hswaps : Swaps LineSwap first ∧ Swaps LineSwap later :=
        ⟨fun span mark hmem => h span mark (by simp [hmem]),
          fun span mark hmem => h span mark (by simp [hmem])⟩
      rw [input_append, input_cons, Piece.input_keep, List.singleton_append,
        keyBlockFree_line hin] at hfree
      rw [output_append, output_cons, Piece.output_keep, List.singleton_append,
        keyBlockFree_line hout]
      refine ⟨?_, ih later.length (by simp at hn; omega) hswaps.2 hfree.2 rfl⟩
      rw [← Bool.not_eq_true]
      intro hopens
      have hline : Swaps LineSwap (first ++ [.keep '\n']) :=
        swaps_append hswaps.1 fun span mark hmem => by simp at hmem
      have hopened := opensKeyBlock_of_output hline (by simpa using hopens)
      rw [input_append] at hopened
      have hclosed := hfree.1
      simp_all

/-- The marks of the passes behind this one open no block. -/
lemma lineSwap_of_urlSwap {span mark : List Char} (h : UrlSwap span mark)
    (hmark : mark = urlMark ∨ mark = marker .authorization ∨
      ∃ entry ∈ keyPrefixes, mark = keyMark entry.1) : LineSwap span mark := by
  refine ⟨h.2.1, ?_⟩
  rcases hmark with rfl | rfl | ⟨entry, hentry, rfl⟩
  · exact ⟨by decide, rfl, ⟨'@', rfl, by decide⟩, by decide⟩
  · exact ⟨by decide, rfl, ⟨']', rfl, by decide⟩, by decide⟩
  · have hall : ∀ entry ∈ keyPrefixes, '\n' ∉ keyMark entry.1 ∧
        (keyMark entry.1).getLast? = some ']' ∧ ¬ "PRIVATE KEY".toList <:+: keyMark entry.1 := by
      decide
    obtain ⟨hline, hlast, hword⟩ := hall entry hentry
    exact ⟨hline, head?_keyMark _, ⟨']', hlast, by decide⟩, hword⟩

lemma KeyBlockFree.result_url (h : KeyBlockFree text) :
    KeyBlockFree (urlScanner.result () text) := by
  refine .output ((swaps_url 0 text).imp fun _ _ h => lineSwap_of_urlSwap h.1 (.inl h.2)) ?_
  rwa [Scanner.input_pieces_zero]

lemma KeyBlockFree.result_authorization (h : KeyBlockFree text) (q : Bool) :
    KeyBlockFree (authorizationScanner.result q text) := by
  refine .output (fun span mark hmem => ?_) (by rwa [Scanner.input_pieces_zero])
  exact lineSwap_of_urlSwap (urlSwap_authorization q 0 text span mark hmem)
    (.inr (.inl (swaps_authorization q 0 text span mark hmem)))

lemma KeyBlockFree.result_keys (h : KeyBlockFree text) (n : Nat) (b : Bool) :
    KeyBlockFree ((keyPrefixScanner n).result b text) := by
  refine .output (fun span mark hmem => ?_) (by rwa [Scanner.input_pieces_zero])
  exact lineSwap_of_urlSwap (urlSwap_keys b 0 text span mark hmem)
    (.inr (.inr (swaps_keys b 0 text span mark hmem).1))

end KeyBlocks

/-! ### The policy on a text and on a tree -/

namespace RedactionPolicy

variable {policy : RedactionPolicy}

lemma applyAll_passes (h : policy.candidates = []) (text : List Char) :
    applyAll policy.passes text = (keyPrefixScanner policy.minSecretLen).result true
      (authorizationScanner.result true (urlScanner.result () (privateKeyPass.apply text))) := by
  rw [passes, h]
  rfl

/-- The passes leave what they left: each finds its own marks only, and those behind it change
nothing about that. -/
lemma applyAll_passes_idem (h : policy.candidates = []) (text : List Char) :
    applyAll policy.passes (applyAll policy.passes text) = applyAll policy.passes text := by
  have hblocks : KeyBlockFree (applyAll policy.passes text) := by
    rw [applyAll_passes h]
    exact (((keyBlockFree_pieces none text).result_url).result_authorization true).result_keys _ _
  have hurls : UrlSettled (applyAll policy.passes text) := by
    rw [applyAll_passes h]
    exact ((urlSettled_result _).result_authorization true).result_keys true
  have hauth : AuthSettled true (applyAll policy.passes text) := by
    rw [applyAll_passes h]
    exact (authSettled_result true _).result_keys true id
  rw [applyAll_passes h (applyAll policy.passes text), hblocks.apply_eq, hurls.result_eq,
    hauth.result_eq, applyAll_passes h, result_keys_idem]

/-- Redacting a text twice is redacting it once. -/
theorem text_idem (h : policy.candidates = []) (input : String) :
    policy.text (policy.text input) = policy.text input := by
  cases henabled : policy.enabled with
  | false => rw [text_of_not_enabled henabled, text_of_not_enabled henabled]
  | true =>
    rw [text_of_enabled henabled input, text_of_enabled henabled, String.toList_ofList,
      applyAll_passes_idem h]

/-- What a field is redacted to. -/
def walkField (policy : RedactionPolicy) (field : String × Value) : Value :=
  if isSecretField field.1 then secretFieldValue field.2 else policy.walkJson field.2

lemma walkFields_eq_map (policy : RedactionPolicy) (fields : List (String × Value)) :
    policy.walkFields fields = fields.map fun field => (field.1, policy.walkField field) := by
  induction fields with
  | nil => rfl
  | cons field fields ih => rw [walkFields, ih, List.map_cons, walkField]

lemma secretFieldValue_idem (value : Value) :
    secretFieldValue (secretFieldValue value) = secretFieldValue value := by
  unfold secretFieldValue
  split_ifs <;> simp_all

/-- Redacting a tree twice is redacting it once. -/
lemma walkJson_idem (h : policy.candidates = []) (value : Value) :
    policy.walkJson (policy.walkJson value) = policy.walkJson value := by
  induction value using Value.ind with
  | null => rfl
  | bool b => rfl
  | int n => rfl
  | float literal => rfl
  | string text => rw [walkJson, walkJson, text_idem h]
  | array items ih =>
    rw [walkJson, walkJson, walkItems_eq_map, walkItems_eq_map, List.map_map]
    exact congrArg Value.array (List.map_congr_left ih)
  | object fields ih =>
    rw [walkJson, walkJson, walkFields_eq_map, walkFields_eq_map, List.map_map]
    refine congrArg Value.object (List.map_congr_left fun field hfield => ?_)
    have hfield := ih field hfield
    simp only [Function.comp_apply, walkField]
    split_ifs
    · rw [secretFieldValue_idem]
    · rw [hfield]

theorem sanitize_idem (h : policy.candidates = []) (value : Value) :
    policy.sanitize (policy.sanitize value) = policy.sanitize value := by
  cases henabled : policy.enabled with
  | false => simp [sanitize, applyJson, henabled]
  | true => simpa [sanitize, applyJson, henabled] using walkJson_idem h value

end RedactionPolicy

end Rupi
