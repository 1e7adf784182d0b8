import Mathlib
import Rupi.Core.Redact
import Rupi.Lib.Rescan

/-!
What the pass over authorization values leaves, and what the pass over keys does to that.

- `IsScheme`: the names of the schemes; `authorizationHit_cases`: what is found at one.
- `AuthSettled`: a text that the pass over authorization values leaves as it is.
- `authSettled_result`, `AuthSettled.result_eq`: it settles a text and leaves a settled one.
- `result_keys_idem`: the pass over keys leaves what it left.
- `AuthSettled.result_keys`: and it leaves a settled text settled.
-/

namespace Rupi

open Rewrite

/-! ### Characters -/

/-- What may stand between a scheme and its value. -/
def isSeparator (c : Char) : Bool := isWhitespace c || c == ':' || c == '='

section Chars

variable {c : Char}

lemma isWhitespace_iff : isWhitespace c = true ↔ (9 ≤ c.toNat ∧ c.toNat ≤ 13) ∨ c.toNat = 0x20 ∨
    c.toNat = 0x85 ∨ c.toNat = 0xA0 ∨ c.toNat = 0x1680 ∨ (0x2000 ≤ c.toNat ∧ c.toNat ≤ 0x200A) ∨
    c.toNat = 0x2028 ∨ c.toNat = 0x2029 ∨ c.toNat = 0x202F ∨ c.toNat = 0x205F ∨
    c.toNat = 0x3000 := by
  simp [isWhitespace, or_assoc]

lemma isAlpha_iff : c.isAlpha = true ↔
    (65 ≤ c.toNat ∧ c.toNat ≤ 90) ∨ (97 ≤ c.toNat ∧ c.toNat ≤ 122) := by
  simp [Char.isAlpha, Char.isUpper, Char.isLower, UInt32.le_iff_toNat_le]

lemma isTokenChar_iff : isTokenChar c = true ↔
    (65 ≤ c.toNat ∧ c.toNat ≤ 90) ∨ (97 ≤ c.toNat ∧ c.toNat ≤ 122) ∨
      (48 ≤ c.toNat ∧ c.toNat ≤ 57) ∨ c = '-' ∨ c = '_' ∨ c = '+' ∨ c = '/' ∨ c = '.' ∨ c = ':' := by
  simp [isTokenChar, Char.isAlphanum, Char.isAlpha, Char.isUpper, Char.isLower, Char.isDigit,
    UInt32.le_iff_toNat_le, or_assoc]

lemma toNat_eq_iff {d : Char} : c = d ↔ c.toNat = d.toNat :=
  ⟨congrArg Char.toNat, fun h => Char.toNat_inj.1 h⟩

lemma isTokenChar_of_isAlpha (h : c.isAlpha = true) : isTokenChar c = true := by
  simp [isTokenChar, Char.isAlphanum, h]

/-- A token is part of a value. -/
lemma isValueChar_of_isTokenChar (h : isTokenChar c = true) : isValueChar c = true := by
  rw [isTokenChar_iff] at h
  have hblank : isWhitespace c = false := by
    rw [← Bool.not_eq_true, isWhitespace_iff]
    simp only [toNat_eq_iff, Char.reduceToNat] at h
    omega
  simp only [isValueChar, hblank, toNat_eq_iff, Char.reduceToNat, Bool.not_false, Bool.true_and,
    bne_iff_ne, Bool.and_eq_true, ne_eq] at h ⊢
  omega

/-- A blank is no part of a token. -/
lemma isTokenChar_of_isWhitespace (h : isWhitespace c = true) : isTokenChar c = false := by
  rw [← Bool.not_eq_true]
  intro htoken
  have hvalue := isValueChar_of_isTokenChar htoken
  simp [isValueChar, h] at hvalue

lemma isAlpha_of_isAlpha_toLower (h : c.toLower.isAlpha = true) : c.isAlpha = true := by
  by_cases hupper : c.isUpper = true
  · simp [Char.isAlpha, hupper]
  · have hsame : c.toLower = c := by simp_all [Char.isUpper, UInt32.le_iff_toNat_le, Char.toLower]
    rwa [hsame] at h

end Chars

/-! ### Schemes -/

/-- The name of an authorization scheme, in upper or lower case. -/
def IsScheme (word : List Char) : Prop :=
  word.map Char.toLower = "bearer".toList ∨ word.map Char.toLower = "basic".toList

section Schemes

variable {word text rest : List Char} {c : Char} {n : Nat}

lemma IsScheme.isAlpha (h : IsScheme word) : ∀ c ∈ word, c.isAlpha = true := by
  intro c hc
  refine isAlpha_of_isAlpha_toLower ?_
  have hmem : c.toLower ∈ word.map Char.toLower := List.mem_map_of_mem hc
  have hbearer : ∀ d ∈ "bearer".toList, d.isAlpha = true := by decide
  have hbasic : ∀ d ∈ "basic".toList, d.isAlpha = true := by decide
  rcases h with h | h
  · exact hbearer _ (h ▸ hmem)
  · exact hbasic _ (h ▸ hmem)

lemma IsScheme.isTokenChar (h : IsScheme word) : ∀ c ∈ word, isTokenChar c = true :=
  fun c hc => isTokenChar_of_isAlpha (h.isAlpha c hc)

/-- A scheme has at least five letters, the first of which is a `b`. -/
lemma IsScheme.shape (h : IsScheme word) :
    5 ≤ word.length ∧ ∃ b letters, word = b :: letters ∧ b.toLower = 'b' := by
  have hlength := h.imp (congrArg List.length) (congrArg List.length)
  cases word with
  | nil => simp [IsScheme] at h
  | cons b letters =>
    refine ⟨?_, b, letters, rfl, ?_⟩
    · simp at hlength ⊢
      omega
    · rcases h with h | h
      · exact (List.cons.inj h).1
      · exact (List.cons.inj h).1

lemma schemeLength_append (h : IsScheme word) (rest : List Char) :
    schemeLength (word ++ rest) = some word.length := by
  have hlength := h.imp (congrArg List.length) (congrArg List.length)
  rcases h with h | h
  · have hsix : word.length = 6 := by simpa using congrArg List.length h
    have htake : (word ++ rest).take 6 = word := by rw [← hsix, List.take_left]
    rw [schemeLength, htake, h, if_pos rfl, hsix]
  · have hfive : word.length = 5 := by simpa using congrArg List.length h
    have htake : (word ++ rest).take 5 = word := by rw [← hfive, List.take_left]
    have hne : ((word ++ rest).take 6).map Char.toLower ≠ "bearer".toList := by
      intro hsix
      have hcut := congrArg (List.take 5) hsix
      rw [← List.map_take, List.take_take, min_eq_left (by decide), htake, h] at hcut
      exact absurd hcut (by decide)
    rw [schemeLength, if_neg hne, htake, h, if_pos rfl, hfive]

lemma exists_scheme (h : schemeLength text = some n) :
    ∃ word rest, IsScheme word ∧ word.length = n ∧ text = word ++ rest := by
  unfold schemeLength at h
  split at h
  · rename_i hscheme
    obtain rfl := Option.some.inj h
    have hlength : (text.take 6).length = 6 := by simpa using congrArg List.length hscheme
    exact ⟨_, _, .inl hscheme, hlength, (List.take_append_drop 6 text).symm⟩
  · split at h
    · rename_i hscheme
      obtain rfl := Option.some.inj h
      have hlength : (text.take 5).length = 5 := by simpa using congrArg List.length hscheme
      exact ⟨_, _, .inr hscheme, hlength, (List.take_append_drop 5 text).symm⟩
    · cases h

lemma schemeLength_eq_none_iff :
    schemeLength text = none ↔ ∀ word, IsScheme word → ¬ word <+: text := by
  constructor
  · rintro h word hword ⟨rest, rfl⟩
    rw [schemeLength_append hword] at h
    cases h
  · intro h
    cases hlength : schemeLength text with
    | none => rfl
    | some n =>
      obtain ⟨word, rest, hword, -, rfl⟩ := exists_scheme hlength
      exact absurd (List.prefix_append word rest) (h word hword)

end Schemes

/-! ### Authorization values -/

section Authorization

variable {word text rest : List Char} {c : Char} {q : Bool} {hit : Hit Char}

lemma authorizationHit_eq_none_iff :
    authorizationHit q text = none ↔ (q = true → schemeLength text = none) := by
  cases q with
  | false => simp [authorizationHit]
  | true =>
    unfold authorizationHit
    cases schemeLength text with
    | none => simp
    | some n =>
      simp only [if_true, forall_const, reduceCtorEq, iff_false]
      split
      · simp
      · split_ifs <;> simp

/-- A scheme begins with a `b`. -/
lemma authorizationHit_of_head (h : c.toLower ≠ 'b') : authorizationHit q (c :: text) = none := by
  refine authorizationHit_eq_none_iff.2 fun _ => schemeLength_eq_none_iff.2 ?_
  intro word hword hfront
  obtain ⟨-, b, letters, rfl, hb⟩ := hword.shape
  obtain ⟨rfl, -⟩ := List.cons_prefix_cons.1 hfront
  exact h hb

/-- A scheme with no separator behind it. -/
lemma authorizationHit_word (h : IsScheme word) (hrest : ∀ c ∈ rest.head?, isSeparator c = false) :
    authorizationHit true (word ++ rest) = some ⟨word.length, none⟩ := by
  simp only [authorizationHit, if_true, schemeLength_append h, List.drop_left]
  cases rest with
  | nil => rfl
  | cons c rest =>
    have hc : isSeparator c = false := hrest c rfl
    rw [isSeparator] at hc
    simp [hc]

/-- A scheme with a value behind it that is too short to withhold. -/
lemma authorizationHit_short (h : IsScheme word) (hc : isSeparator c = true)
    (hshort : (rest.takeWhile isValueChar).length < 4) :
    authorizationHit true (word ++ c :: rest) = some ⟨word.length + 1, none⟩ := by
  rw [isSeparator] at hc
  simp only [authorizationHit, if_true, schemeLength_append h, List.drop_left, hc, hshort]

/-- A scheme with a value behind it. -/
lemma authorizationHit_value (h : IsScheme word) (hc : isSeparator c = true)
    (hlong : ¬ (rest.takeWhile isValueChar).length < 4) :
    authorizationHit true (word ++ c :: rest) =
      some ⟨word.length + 1, some ((rest.takeWhile isValueChar).length, marker .authorization)⟩ := by
  rw [isSeparator] at hc
  simp only [authorizationHit, if_true, schemeLength_append h, List.drop_left, hc, hlong, if_false]

/-- What a pass finds at a scheme. -/
lemma authorizationHit_cases (h : authorizationHit q text = some hit) :
    q = true ∧ ∃ word rest, IsScheme word ∧ text = word ++ rest ∧
      ((∀ c ∈ rest.head?, isSeparator c = false) ∨
        ∃ c value, rest = c :: value ∧ isSeparator c = true) := by
  have hsome : authorizationHit q text ≠ none := by simp [h]
  rw [Ne, authorizationHit_eq_none_iff, Classical.not_imp] at hsome
  obtain ⟨n, hlength⟩ := Option.ne_none_iff_exists'.1 hsome.2
  obtain ⟨word, rest, hword, -, rfl⟩ := exists_scheme hlength
  refine ⟨hsome.1, word, rest, hword, rfl, ?_⟩
  cases rest with
  | nil => exact .inl (by simp)
  | cons c value =>
    cases hc : isSeparator c with
    | false => exact .inl (by simpa using hc)
    | true => exact .inr ⟨c, value, rfl, hc⟩

lemma result_word (h : IsScheme word) (hrest : ∀ c ∈ rest.head?, isSeparator c = false) :
    authorizationScanner.result true (word ++ rest) =
      word ++ authorizationScanner.result true rest :=
  Scanner.result_of_lead (authorizationHit_word h hrest)

lemma result_short (h : IsScheme word) (hc : isSeparator c = true)
    (hshort : (rest.takeWhile isValueChar).length < 4) :
    authorizationScanner.result true (word ++ c :: rest) =
      word ++ c :: authorizationScanner.result true rest := by
  have hhit : authorizationScanner.hit true (word ++ c :: rest) = some ⟨word.length + 1, none⟩ :=
    authorizationHit_short h hc hshort
  rw [List.append_cons] at hhit ⊢
  rw [Scanner.result_of_lead (by simpa using hhit), ← List.append_cons]
  rfl

/-- A value that is withheld. -/
lemma result_value {value back : List Char} (h : IsScheme word) (hc : isSeparator c = true)
    (hvalue : ∀ d ∈ value, isValueChar d = true) (hback : ∀ d ∈ back.head?, isValueChar d = false)
    (hlong : ¬ value.length < 4) :
    authorizationScanner.result true (word ++ c :: (value ++ back)) =
      word ++ c :: (marker .authorization ++ authorizationScanner.result true back) := by
  have hspan : (value ++ back).takeWhile isValueChar = value := takeWhile_span hvalue hback
  have hhit : authorizationScanner.hit true (word ++ c :: (value ++ back)) =
      some ⟨word.length + 1, some (value.length, marker .authorization)⟩ := by
    have hlong' : ¬ ((value ++ back).takeWhile isValueChar).length < 4 := by rwa [hspan]
    have hfound := authorizationHit_value h hc hlong'
    rwa [hspan] at hfound
  rw [List.append_cons] at hhit ⊢
  rw [Scanner.result_of_swap (by simpa using hhit), ← List.append_cons]
  rfl

lemma swaps_authorization (q : Bool) (n : Nat) (text : List Char) :
    Swaps (fun _ mark => mark = marker .authorization) (authorizationScanner.pieces q n text) := by
  refine Scanner.swaps_pieces (fun q text hit hhit swap hswap => ?_) q n text
  obtain ⟨rfl, word, rest, hword, rfl, hrest | ⟨c, value, rfl, hc⟩⟩ :=
    authorizationHit_cases (show authorizationHit q text = some hit from hhit)
  · obtain rfl := Option.some.inj ((authorizationHit_word hword hrest).symm.trans hhit)
    cases hswap
  · by_cases hshort : (value.takeWhile isValueChar).length < 4
    · obtain rfl := Option.some.inj ((authorizationHit_short hword hc hshort).symm.trans hhit)
      cases hswap
    · obtain rfl := Option.some.inj ((authorizationHit_value hword hc hshort).symm.trans hhit)
      obtain rfl := Option.some.inj hswap
      rfl

/-- A scheme in a rewritten text was there before. -/
lemma IsScheme.prefix_of_output {pieces : List (Piece Char)} (h : IsScheme word)
    (hswaps : Swaps (fun _ mark => mark.head? = some '[') pieces)
    (hfront : word <+: output pieces) : word <+: input pieces :=
  prefix_of_prefix_output hswaps (fun hmem => absurd (h.isAlpha _ hmem) (by decide)) hfront

/-- Where no scheme begins, none does once the text behind is rewritten. -/
lemma authorizationHit_of_output {pieces : List (Piece Char)}
    (hswaps : Swaps (fun _ mark => mark.head? = some '[') pieces)
    (h : authorizationHit q (c :: input pieces) = none) :
    authorizationHit q (c :: output pieces) = none := by
  rw [authorizationHit_eq_none_iff, schemeLength_eq_none_iff] at h ⊢
  intro hq word hword hfront
  refine h hq word hword (@IsScheme.prefix_of_output word (.keep c :: pieces) hword ?_ hfront)
  intro span mark hmem
  rcases List.mem_cons.1 hmem with heq | hmem
  · cases heq
  · exact hswaps span mark hmem

/-- The pass keeps the first symbol. -/
lemma head?_result (q : Bool) (text : List Char) :
    (authorizationScanner.result q text).head? = text.head? := by
  cases text with
  | nil => rfl
  | cons c text =>
    cases hhit : authorizationScanner.hit q (c :: text) with
    | none => rw [Scanner.result_cons hhit]; rfl
    | some hit =>
      obtain ⟨rfl, word, rest, hword, htext, hrest | ⟨d, value, rfl, hd⟩⟩ :=
        authorizationHit_cases (show authorizationHit q (c :: text) = some hit from hhit)
      all_goals
        obtain ⟨-, b, letters, rfl, -⟩ := hword.shape
        rw [htext]
      · rw [result_word hword hrest]; rfl
      · by_cases hshort : (value.takeWhile isValueChar).length < 4
        · rw [result_short hword hd hshort]; rfl
        · obtain ⟨front, back, rfl, hfront, hback⟩ := exists_span isValueChar value
          rw [takeWhile_span hfront hback] at hshort
          rw [result_value hword hd hfront hback hshort]; rfl

/-- A short value holds no scheme. -/
lemma takeWhile_result (text : List Char) (q : Bool)
    (hshort : (text.takeWhile isValueChar).length < 5) :
    (authorizationScanner.result q text).takeWhile isValueChar = text.takeWhile isValueChar := by
  induction text generalizing q with
  | nil => rfl
  | cons c text ih =>
    have hnone : authorizationScanner.hit q (c :: text) = none := by
      refine authorizationHit_eq_none_iff.2 fun _ => schemeLength_eq_none_iff.2 ?_
      intro word hword hfront
      have hvalue : ∀ d ∈ word, isValueChar d = true :=
        fun d hd => isValueChar_of_isTokenChar (hword.isTokenChar d hd)
      have hle := length_le_takeWhile hvalue hfront
      have hfive := hword.shape.1
      omega
    rw [Scanner.result_cons hnone]
    cases hc : isValueChar c with
    | false => simp [hc]
    | true =>
      rw [List.takeWhile_cons_of_pos hc] at hshort ⊢
      rw [List.takeWhile_cons_of_pos hc, ih _ (by simp at hshort; omega)]

/-- A text that the pass over authorization values leaves as it is. The state says whether a token
may start at its beginning. -/
inductive AuthSettled : Bool → List Char → Prop
  | nil (q : Bool) : AuthSettled q []
  | keep {q : Bool} {c : Char} {text : List Char} :
      authorizationHit q (c :: text) = none → AuthSettled (!isTokenChar c) text →
        AuthSettled q (c :: text)
  | word {word text : List Char} :
      IsScheme word → (∀ c ∈ text.head?, isSeparator c = false) → AuthSettled true text →
        AuthSettled true (word ++ text)
  | short {word : List Char} {c : Char} {text : List Char} :
      IsScheme word → isSeparator c = true → (text.takeWhile isValueChar).length < 4 →
        AuthSettled true text → AuthSettled true (word ++ c :: text)
  | marked {word : List Char} {c : Char} {text : List Char} :
      IsScheme word → isSeparator c = true → (∀ d ∈ text.head?, isValueChar d = false) →
        AuthSettled true text → AuthSettled true (word ++ c :: (marker .authorization ++ text))

/-- What the pass leaves is settled for it. -/
lemma authSettled_result (q : Bool) (text : List Char) :
    AuthSettled q (authorizationScanner.result q text) := by
  induction hn : text.length using Nat.strong_induction_on generalizing q text with
  | h n ih =>
    cases text with
    | nil => exact .nil q
    | cons c text =>
      cases hhit : authorizationScanner.hit q (c :: text) with
      | none =>
        rw [Scanner.result_cons hhit]
        refine .keep ?_ (ih text.length (by simp at hn; omega) _ _ rfl)
        have hmark : Swaps (fun _ mark => mark.head? = some '[')
            (authorizationScanner.pieces (!isTokenChar c) 0 text) :=
          (swaps_authorization _ _ _).imp fun _ _ hmark => hmark ▸ rfl
        refine authorizationHit_of_output hmark ?_
        rwa [Scanner.input_pieces_zero]
      | some hit =>
        obtain ⟨rfl, word, rest, hword, htext, hrest | ⟨d, value, rfl, hd⟩⟩ :=
          authorizationHit_cases (show authorizationHit q (c :: text) = some hit from hhit)
        all_goals
          have hfive := hword.shape.1
          rw [htext] at hn ⊢
          rw [List.length_append] at hn
        · rw [result_word hword hrest]
          exact .word hword (by rwa [head?_result]) (ih rest.length (by omega) _ _ rfl)
        · rw [List.length_cons] at hn
          by_cases hshort : (value.takeWhile isValueChar).length < 4
          · rw [result_short hword hd hshort]
            exact .short hword hd (by rwa [takeWhile_result _ _ (by omega)])
              (ih value.length (by omega) _ _ rfl)
          · obtain ⟨front, back, rfl, hfront, hback⟩ := exists_span isValueChar value
            rw [takeWhile_span hfront hback] at hshort
            rw [List.length_append] at hn
            rw [result_value hword hd hfront hback hshort]
            exact .marked hword hd (by rwa [head?_result]) (ih back.length (by omega) _ _ rfl)

/-- A settled text stays as it is. -/
lemma AuthSettled.result_eq (h : AuthSettled q text) : authorizationScanner.result q text = text := by
  induction h with
  | nil => rfl
  | keep hnone _ ih => rw [Scanner.result_cons hnone]; exact congrArg _ ih
  | word hword hrest _ ih => rw [result_word hword hrest, ih]
  | short hword hc hshort _ ih => rw [result_short hword hc hshort, ih]
  | marked hword hc hback _ ih =>
    have hmark : ∀ d ∈ marker .authorization, isValueChar d = true := by decide
    rw [result_value hword hc hmark hback (by decide), ih]

end Authorization

/-! ### Provider keys -/

/-- What stands for a key with this prefix. -/
def keyMark (p : String) : List Char := ("[redacted:key " ++ p ++ "]").toList

lemma keyMark_append (p : String) (text : List Char) :
    keyMark p ++ text = '[' :: ("redacted:key".toList ++ ' ' :: (p.toList ++ ']' :: text)) := by
  simp [keyMark]

lemma head?_keyMark (p : String) : (keyMark p).head? = some '[' := by simp [keyMark]

lemma marker_authorization_append (text : List Char) :
    marker .authorization ++ text = '[' :: ("redacted:auth".toList ++ ']' :: text) := by
  simp [marker, SecretKind.asStr]

section Keys

variable {n : Nat} {token back text word : List Char} {c : Char} {p : String} {b q : Bool}

lemma matchingPrefix_eq_none_iff : matchingPrefix token n = none ↔ ∀ entry ∈ keyPrefixes,
    entry.1.toList <+: token → token.length - entry.1.length < max entry.2 n := by
  simp only [matchingPrefix, Option.map_eq_none_iff, List.find?_eq_none, Bool.and_eq_true,
    List.isPrefixOf_iff_prefix, decide_eq_true_eq, not_and, not_le]

lemma exists_matchingPrefix (h : matchingPrefix token n = some p) :
    ∃ entry ∈ keyPrefixes, entry.1 = p := by
  obtain ⟨entry, hfind, hp⟩ := Option.map_eq_some_iff.1 h
  exact ⟨entry, List.mem_of_find?_eq_some hfind, hp⟩

/-- A provider key does not begin with just any letter. -/
lemma matchingPrefix_of_head (h : ∀ entry ∈ keyPrefixes, entry.1.toList.head? ≠ some c) :
    matchingPrefix (c :: token) n = none := by
  refine matchingPrefix_eq_none_iff.2 fun entry hentry hfront => absurd ?_ (h entry hentry)
  have hne : entry.1.toList ≠ [] := by
    have hall : ∀ entry ∈ keyPrefixes, entry.1.toList ≠ [] := by decide
    exact hall entry hentry
  obtain ⟨rest, heq⟩ := hfront
  cases hlist : entry.1.toList with
  | nil => exact absurd hlist hne
  | cons d chars =>
    rw [hlist] at heq
    rw [(List.cons.inj heq).1]
    rfl

/-- Neither does it stop at its prefix. -/
lemma matchingPrefix_entry {entry : String × Nat} (h : entry ∈ keyPrefixes) :
    matchingPrefix entry.1.toList n = none := by
  have hshort : ∀ entry ∈ keyPrefixes, ∀ other ∈ keyPrefixes,
      entry.1.toList.length - other.1.length < other.2 := by decide
  exact matchingPrefix_eq_none_iff.2 fun other hother _ =>
    lt_of_lt_of_le (hshort entry h other hother) (le_max_left _ _)

/-- The words of a mark are no keys. -/
lemma matchingPrefix_redacted (hne : text.head? = some 'r') : matchingPrefix text n = none := by
  cases text with
  | nil => cases hne
  | cons c text =>
    obtain rfl := Option.some.inj hne
    exact matchingPrefix_of_head (by decide)

lemma matchingPrefix_short (h : token.length < 8) : matchingPrefix token n = none := by
  have hlong : ∀ entry ∈ keyPrefixes, 8 ≤ entry.2 := by decide
  refine matchingPrefix_eq_none_iff.2 fun entry hentry _ => ?_
  have height := hlong entry hentry
  omega

lemma keyPrefixHit_false (text : List Char) : keyPrefixHit n false text = none := by
  simp [keyPrefixHit]

lemma keyPrefixHit_symbol (hc : isTokenChar c = false) :
    keyPrefixHit n b (c :: text) = none := by
  simp [keyPrefixHit, hc]

/-- A token without a key is passed over. -/
lemma keyPrefixHit_of_token (h : matchingPrefix (text.takeWhile isTokenChar) n = none) :
    keyPrefixHit n b text = none := by
  simp [keyPrefixHit, h]

lemma head_symbol (hc : isTokenChar c = false) :
    ∀ d ∈ (c :: text).head?, isTokenChar d = false := fun _ hd => Option.some.inj hd ▸ hc

lemma keyPrefixHit_token (htoken : ∀ c ∈ token, isTokenChar c = true)
    (hback : ∀ c ∈ back.head?, isTokenChar c = false) (hne : token ≠ []) :
    keyPrefixHit n true (token ++ back) =
      (matchingPrefix token n).map fun p => ⟨0, some (token.length, keyMark p)⟩ := by
  have hempty : token.isEmpty = false := by simpa using hne
  simp [keyPrefixHit, takeWhile_span htoken hback, hempty, keyMark]

lemma result_keys_symbol (hc : isTokenChar c = false) :
    (keyPrefixScanner n).result b (c :: text) = c :: (keyPrefixScanner n).result true text := by
  rw [Scanner.result_cons (keyPrefixHit_symbol hc)]
  simp [keyPrefixScanner, hc]

/-- Inside a token the next symbol stays. -/
lemma result_keys_false : (keyPrefixScanner n).result false (c :: text) =
    c :: (keyPrefixScanner n).result (!isTokenChar c) text :=
  Scanner.result_cons (keyPrefixHit_false (n := n) (c :: text))

lemma head?_result_keys_false :
    ((keyPrefixScanner n).result false text).head? = text.head? := by
  cases text with
  | nil => rfl
  | cons c text => rw [result_keys_false]; rfl

/-- Inside a token nothing is recognised. -/
lemma result_keys_inside (htoken : ∀ c ∈ token, isTokenChar c = true) :
    (keyPrefixScanner n).result false (token ++ text) =
      token ++ (keyPrefixScanner n).result false text := by
  induction token with
  | nil => rfl
  | cons c token ih =>
    have hc : isTokenChar c = true := htoken c List.mem_cons_self
    have hrest := ih fun d hd => htoken d (List.mem_cons_of_mem _ hd)
    rw [List.cons_append, result_keys_false, hc, List.cons_append, ← hrest]
    rfl

/-- Behind a token the state is that of a beginning. -/
lemma result_keys_back (hback : ∀ c ∈ back.head?, isTokenChar c = false) (b : Bool) :
    (keyPrefixScanner n).result b back = (keyPrefixScanner n).result true back := by
  cases back with
  | nil => rfl
  | cons c back => rw [result_keys_symbol (hback c rfl), result_keys_symbol (hback c rfl)]

/-- What is no token stays at the beginning. -/
lemma head?_result_keys (hback : ∀ c ∈ back.head?, isTokenChar c = false) :
    ((keyPrefixScanner n).result b back).head? = back.head? := by
  cases back with
  | nil => rfl
  | cons c back => rw [result_keys_symbol (hback c rfl)]; rfl

/-- A token that carries no key. -/
lemma result_keys_token (htoken : ∀ c ∈ token, isTokenChar c = true)
    (hback : ∀ c ∈ back.head?, isTokenChar c = false) (hnone : matchingPrefix token n = none)
    (b : Bool) : (keyPrefixScanner n).result b (token ++ back) =
      token ++ (keyPrefixScanner n).result true back := by
  cases token with
  | nil => exact result_keys_back hback b
  | cons c token =>
    have hc : isTokenChar c = true := htoken c List.mem_cons_self
    have hhit : (keyPrefixScanner n).hit b (c :: (token ++ back)) = none := by
      cases b with
      | false => exact keyPrefixHit_false (n := n) (c :: (token ++ back))
      | true =>
        have hfound := keyPrefixHit_token (n := n) htoken hback (by simp)
        rwa [hnone] at hfound
    have hinside : (keyPrefixScanner n).result false (token ++ back) =
        token ++ (keyPrefixScanner n).result false back :=
      result_keys_inside fun d hd => htoken d (List.mem_cons_of_mem _ hd)
    rw [result_keys_back hback] at hinside
    rw [List.cons_append, Scanner.result_cons hhit, List.cons_append, ← hinside]
    simp [keyPrefixScanner, hc]

/-- A token that carries a key. -/
lemma result_keys_swapped (htoken : ∀ c ∈ token, isTokenChar c = true)
    (hback : ∀ c ∈ back.head?, isTokenChar c = false) (hne : token ≠ [])
    (hsome : matchingPrefix token n = some p) :
    (keyPrefixScanner n).result true (token ++ back) =
      keyMark p ++ (keyPrefixScanner n).result true back := by
  have hhit : (keyPrefixScanner n).hit true ([] ++ (token ++ back)) =
      some ⟨([] : List Char).length, some (token.length, keyMark p)⟩ := by
    have hfound := keyPrefixHit_token (n := n) htoken hback hne
    rwa [hsome] at hfound
  exact Scanner.result_of_swap hhit

/-- The mark of a key carries none. -/
lemma result_keys_keyMark {entry : String × Nat} (h : entry ∈ keyPrefixes) (text : List Char) :
    (keyPrefixScanner n).result b (keyMark entry.1 ++ text) =
      keyMark entry.1 ++ (keyPrefixScanner n).result true text := by
  have htoken : ∀ c ∈ entry.1.toList, isTokenChar c = true := by
    have hall : ∀ entry ∈ keyPrefixes, ∀ c ∈ entry.1.toList, isTokenChar c = true := by decide
    exact hall entry h
  rw [keyMark_append, keyMark_append, result_keys_symbol (by decide),
    result_keys_token (by decide) (head_symbol (by decide)) (matchingPrefix_redacted rfl),
    result_keys_symbol (by decide),
    result_keys_token htoken (head_symbol (by decide)) (matchingPrefix_entry h),
    result_keys_symbol (by decide)]

lemma result_keys_marker (text : List Char) :
    (keyPrefixScanner n).result b (marker .authorization ++ text) =
      marker .authorization ++ (keyPrefixScanner n).result true text := by
  rw [marker_authorization_append, marker_authorization_append, result_keys_symbol (by decide),
    result_keys_token (by decide) (head_symbol (by decide)) (matchingPrefix_redacted rfl),
    result_keys_symbol (by decide)]

/-- The pass over keys leaves what it left. -/
lemma result_keys_idem (text : List Char) :
    (keyPrefixScanner n).result true ((keyPrefixScanner n).result true text) =
      (keyPrefixScanner n).result true text := by
  induction hlength : text.length using Nat.strong_induction_on generalizing text with
  | h m ih =>
    obtain ⟨token, back, rfl, htoken, hback⟩ := exists_span isTokenChar text
    cases token with
    | nil =>
      cases back with
      | nil => rfl
      | cons c back =>
        have hc : isTokenChar c = false := hback c rfl
        rw [List.nil_append, result_keys_symbol hc, result_keys_symbol hc,
          ih back.length (by simp at hlength; omega) back rfl]
    | cons c token =>
      have hrest := ih back.length (by simp at hlength; omega) back rfl
      cases hkey : matchingPrefix (c :: token) n with
      | none =>
        rw [result_keys_token htoken hback hkey,
          result_keys_token htoken (by rwa [head?_result_keys hback]) hkey, hrest]
      | some p =>
        obtain ⟨entry, hentry, rfl⟩ := exists_matchingPrefix hkey
        rw [result_keys_swapped htoken hback (by simp) hkey, result_keys_keyMark hentry, hrest]

/-- A text settled for the pass over authorization values begins with any other symbol. -/
lemma AuthSettled.symbol (hc : isTokenChar c = false) (h : AuthSettled true text) :
    AuthSettled q (c :: text) := by
  refine .keep (authorizationHit_of_head fun hlower => ?_) (by rwa [hc])
  have halpha : c.isAlpha = true := isAlpha_of_isAlpha_toLower (by rw [hlower]; decide)
  rw [isTokenChar_of_isAlpha halpha] at hc
  cases hc

/-- Inside a token no scheme begins. -/
lemma AuthSettled.inside (htoken : ∀ c ∈ token, isTokenChar c = true) (h : AuthSettled false text) :
    AuthSettled false (token ++ text) := by
  induction token with
  | nil => exact h
  | cons c token ih =>
    have hc : isTokenChar c = true := htoken c List.mem_cons_self
    refine .keep (authorizationHit_eq_none_iff.2 (by simp)) ?_
    rw [hc]
    exact ih fun d hd => htoken d (List.mem_cons_of_mem _ hd)

/-- A token that is no scheme, and the symbol behind it. -/
lemma AuthSettled.word_symbol (htoken : ∀ c ∈ token, isTokenChar c = true)
    (hhead : ∀ c ∈ token.head?, c.toLower ≠ 'b') (hc : isTokenChar c = false)
    (h : AuthSettled true text) : AuthSettled true (token ++ c :: text) := by
  cases token with
  | nil => exact h.symbol hc
  | cons d token =>
    have hd : isTokenChar d = true := htoken d List.mem_cons_self
    refine .keep (authorizationHit_of_head (hhead d rfl)) ?_
    rw [hd]
    exact .inside (fun e he => htoken e (List.mem_cons_of_mem _ he)) (h.symbol hc)

lemma AuthSettled.of_keyMark {entry : String × Nat} (hentry : entry ∈ keyPrefixes)
    (h : AuthSettled true text) : AuthSettled true (keyMark entry.1 ++ text) := by
  have hprefixes : ∀ entry ∈ keyPrefixes, (∀ c ∈ entry.1.toList, isTokenChar c = true) ∧
      ∀ c ∈ entry.1.toList.head?, c.toLower ≠ 'b' := by decide
  obtain ⟨htoken, hhead⟩ := hprefixes entry hentry
  rw [keyMark_append]
  exact .symbol (by decide) (.word_symbol (by decide) (by decide) (by decide)
    (.word_symbol htoken hhead (by decide) h))

lemma AuthSettled.of_marker (h : AuthSettled true text) :
    AuthSettled true (marker .authorization ++ text) := by
  rw [marker_authorization_append]
  exact .symbol (by decide) (.word_symbol (by decide) (by decide) (by decide) h)

/-- Where a word of token symbols ends inside a text that begins with a token. -/
lemma token_cases (hword : ∀ c ∈ word, isTokenChar c = true)
    (hback : ∀ c ∈ back.head?, isTokenChar c = false) (h : word ++ text = token ++ back) :
    ∃ more, token = word ++ more ∧ text = more ++ back := by
  rcases List.append_eq_append_iff.1 h with ⟨more, htoken, htext⟩ | ⟨over', hsplit, hrest⟩
  · exact ⟨more, htoken, htext⟩
  · cases over' with
    | nil => exact ⟨[], by simpa using hsplit.symm, by simpa using hrest.symm⟩
    | cons c over' =>
      have hc : isTokenChar c = false := hback c (by simp [hrest])
      rw [hword c (by simp [hsplit])] at hc
      cases hc

/-- What is behind a token of a settled text is settled. -/
lemma AuthSettled.behind_token (h : AuthSettled q text) (htext : text = token ++ back)
    (htoken : ∀ c ∈ token, isTokenChar c = true)
    (hback : ∀ c ∈ back.head?, isTokenChar c = false) : AuthSettled true back := by
  induction h generalizing token with
  | nil =>
    obtain ⟨-, rfl⟩ := List.append_eq_nil_iff.1 htext.symm
    exact .nil true
  | @keep q c text _ hrest ih =>
    cases token with
    | nil =>
      obtain rfl : c :: text = back := htext
      have hc : isTokenChar c = false := hback c rfl
      rw [hc] at hrest
      exact hrest.symbol hc
    | cons d token =>
      exact ih (List.cons.inj htext).2 fun e he => htoken e (List.mem_cons_of_mem _ he)
  | word hword _ _ ih =>
    obtain ⟨more, rfl, hmore⟩ := token_cases hword.isTokenChar hback htext
    exact ih hmore fun e he => htoken e (List.mem_append_right _ he)
  | @short w c text hword hsep hshort hrest ih =>
    obtain ⟨more, rfl, hmore⟩ := token_cases hword.isTokenChar hback htext
    cases more with
    | nil =>
      obtain rfl : c :: text = back := hmore
      exact hrest.symbol (hback c rfl)
    | cons d more =>
      exact ih (List.cons.inj hmore).2 fun e he =>
        htoken e (List.mem_append_right _ (List.mem_cons_of_mem _ he))
  | @marked w c text hword hsep hhead hrest ih =>
    obtain ⟨more, rfl, hmore⟩ := token_cases hword.isTokenChar hback htext
    cases more with
    | nil =>
      obtain rfl : c :: (marker .authorization ++ text) = back := hmore
      exact hrest.of_marker.symbol (hback c rfl)
    | cons d more =>
      cases more with
      | nil =>
        obtain rfl : marker .authorization ++ text = back := (List.cons.inj hmore).2
        exact hrest.of_marker
      | cons e more =>
        have hbracket := (List.cons.inj (List.cons.inj hmore).2).1
        have he : isTokenChar e = true := htoken e (by simp)
        rw [← hbracket] at he
        exact absurd he (by decide)

/-- A short value holds no key. -/
lemma takeWhile_result_keys (text : List Char) (b : Bool)
    (hshort : (text.takeWhile isValueChar).length < 8) :
    ((keyPrefixScanner n).result b text).takeWhile isValueChar = text.takeWhile isValueChar := by
  induction text generalizing b with
  | nil => rfl
  | cons c text ih =>
    have hhit : (keyPrefixScanner n).hit b (c :: text) = none := by
      have hvalue : ∀ d ∈ (c :: text).takeWhile isTokenChar, isValueChar d = true :=
        fun d hd => isValueChar_of_isTokenChar (List.mem_takeWhile_imp hd)
      have hle := length_le_takeWhile hvalue (List.takeWhile_prefix _)
      exact keyPrefixHit_of_token (matchingPrefix_short (by omega))
    rw [Scanner.result_cons hhit]
    cases hc : isValueChar c with
    | false => simp [hc]
    | true =>
      rw [List.takeWhile_cons_of_pos hc] at hshort ⊢
      rw [List.takeWhile_cons_of_pos hc, ih _ (by simp at hshort; omega)]

/-- A scheme is no key. -/
lemma result_keys_scheme (h : IsScheme word) (b : Bool) (text : List Char) :
    (keyPrefixScanner n).result b (word ++ text) =
      word ++ (keyPrefixScanner n).result false text := by
  have hall := h.isTokenChar
  obtain ⟨-, c, letters, rfl, hc⟩ := h.shape
  have htoken : isTokenChar c = true := hall c List.mem_cons_self
  have hhit : (keyPrefixScanner n).hit b (c :: (letters ++ text)) = none := by
    have hletters : ∀ entry ∈ keyPrefixes,
        entry.1.toList.head?.map Char.toLower ≠ some 'b' := by decide
    refine keyPrefixHit_of_token ?_
    rw [List.takeWhile_cons_of_pos htoken]
    refine matchingPrefix_of_head fun entry hentry hhead => hletters entry hentry ?_
    rw [hhead, Option.map_some, hc]
  have hinside : (keyPrefixScanner n).result false (letters ++ text) =
      letters ++ (keyPrefixScanner n).result false text :=
    result_keys_inside fun d hd => hall d (List.mem_cons_of_mem _ hd)
  rw [List.cons_append, Scanner.result_cons hhit, List.cons_append, ← hinside]
  simp [keyPrefixScanner, htoken]

/-- A hit is a token that carries a key, at a place where a token may start. -/
lemma keyPrefixHit_cases {hit : Hit Char} (h : keyPrefixHit n b text = some hit) :
    b = true ∧ ∃ token back, text = token ++ back ∧ (∀ c ∈ token, isTokenChar c = true) ∧
      (∀ c ∈ back.head?, isTokenChar c = false) ∧ token ≠ [] ∧
      ∃ entry ∈ keyPrefixes, matchingPrefix token n = some entry.1 ∧
        hit = ⟨0, some (token.length, keyMark entry.1)⟩ := by
  obtain ⟨token, back, rfl, htoken, hback⟩ := exists_span isTokenChar text
  cases b with
  | false =>
    rw [keyPrefixHit_false] at h
    cases h
  | true =>
    cases token with
    | nil =>
      have hempty : ([] ++ back).takeWhile isTokenChar = [] := takeWhile_span (by simp) hback
      rw [List.nil_append] at hempty h
      simp [keyPrefixHit, hempty] at h
    | cons c token =>
      rw [keyPrefixHit_token htoken hback (by simp)] at h
      obtain ⟨p, hp, rfl⟩ := Option.map_eq_some_iff.1 h
      obtain ⟨entry, hentry, rfl⟩ := exists_matchingPrefix hp
      exact ⟨rfl, _, _, rfl, htoken, hback, by simp, entry, hentry, hp, rfl⟩

lemma swaps_keys (b : Bool) (k : Nat) (text : List Char) :
    Swaps (fun span mark => (∃ entry ∈ keyPrefixes, mark = keyMark entry.1) ∧
      ∀ c ∈ span, isTokenChar c = true) ((keyPrefixScanner n).pieces b k text) := by
  refine Scanner.swaps_pieces (fun q text hit hhit swap hswap => ?_) b k text
  obtain ⟨rfl, token, back, rfl, htoken, -, -, entry, hentry, -, rfl⟩ :=
    keyPrefixHit_cases (show keyPrefixHit n q text = some hit from hhit)
  obtain rfl := Option.some.inj hswap
  exact ⟨⟨entry, hentry, rfl⟩, by simpa using htoken⟩

/-- The pass over keys leaves a settled text settled. -/
lemma AuthSettled.result_keys (h : AuthSettled q text) (b : Bool) (hb : b = true → q = true) :
    AuthSettled q ((keyPrefixScanner n).result b text) := by
  induction h generalizing b with
  | nil q => exact .nil q
  | @keep q c text hnone hrest ih =>
    have hplain : ∀ b, (keyPrefixScanner n).hit b (c :: text) = none →
        AuthSettled q ((keyPrefixScanner n).result b (c :: text)) := by
      intro b hhit
      rw [Scanner.result_cons hhit]
      refine .keep ?_ (ih _ id)
      have hmark : Swaps (fun _ mark => mark.head? = some '[')
          ((keyPrefixScanner n).pieces (!isTokenChar c) 0 text) :=
        (swaps_keys _ _ _).imp fun _ _ ⟨⟨entry, _, hmark⟩, _⟩ => hmark ▸ head?_keyMark entry.1
      refine authorizationHit_of_output hmark ?_
      rwa [Scanner.input_pieces_zero]
    cases hhit : (keyPrefixScanner n).hit b (c :: text) with
    | none => exact hplain b hhit
    | some hit =>
      -- the token goes; what is behind it is settled because it is behind the token that stayed
      obtain ⟨rfl, token, back, htext, htoken, hback, hne, entry, hentry, hkey, -⟩ :=
        keyPrefixHit_cases (show keyPrefixHit n b (c :: text) = some hit from hhit)
      obtain rfl : q = true := hb rfl
      have hstay := hplain false (keyPrefixHit_false (n := n) (c :: text))
      rw [htext] at hstay ⊢
      rw [result_keys_inside htoken, result_keys_back hback] at hstay
      rw [result_keys_swapped htoken hback hne hkey]
      exact .of_keyMark hentry (hstay.behind_token rfl htoken (by rwa [head?_result_keys hback]))
  | @word w text hword hhead hrest ih =>
    rw [result_keys_scheme hword]
    exact .word hword (by rwa [head?_result_keys_false]) (ih false (by simp))
  | @short w c text hword hsep hshort hrest ih =>
    rw [result_keys_scheme hword, result_keys_false]
    exact .short hword hsep (by rwa [takeWhile_result_keys _ _ (by omega)]) (ih _ (by simp))
  | @marked w c text hword hsep hhead hrest ih =>
    have htail : ∀ d ∈ text.head?, isTokenChar d = false := by
      intro d hd
      rw [← Bool.not_eq_true]
      intro htoken
      have hd' := hhead d hd
      rw [isValueChar_of_isTokenChar htoken] at hd'
      cases hd'
    rw [result_keys_scheme hword, result_keys_false, result_keys_marker]
    exact .marked hword hsep (by rwa [head?_result_keys htail]) (ih true (by simp))

end Keys

end Rupi
