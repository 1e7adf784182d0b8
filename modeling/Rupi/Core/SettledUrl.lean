import Rupi.Core.Settled

/-!
What the pass over URL credentials leaves, and what the passes behind it do to that.

- `UrlSettled`: a text that the pass leaves as it is.
- `UrlSwap`, `urlHit_of_output`: rewriting behind a place where nothing was recognised.
- `urlSettled_result`, `UrlSettled.result_eq`: the pass settles a text and leaves a settled one.
- `UrlSettled.result_authorization`, `UrlSettled.result_keys`: so do the passes behind it.
-/

namespace Rupi

open Rewrite

/-! ### URL credentials -/

/-- What stands for a credential. -/
def urlMark : List Char := marker .urlCredentials ++ ['@']

/-- A text that the pass over URL credentials leaves as it is: what it recognises is its own
mark. -/
def UrlSettled (text : List Char) : Prop :=
  ∀ rest, rest <:+ text →
    urlHit rest = none ∨ ∃ back, rest = authorityMark ++ (urlMark ++ back)

section Urls

variable {text rest front back : List Char} {c : Char} {pieces : List (Piece Char)} {q : Bool}
  {n : Nat} {hit : Hit Char}

lemma urlHit_nil : urlHit [] = none := by decide

lemma urlHit_of_not_begins (h : ¬ authorityMark <+: text) : urlHit text = none := by
  rw [← List.isPrefixOf_iff_prefix] at h
  simp [urlHit, h]

/-- What is recognised behind a scheme, by what stands before the first `@`. -/
lemma urlHit_append (hfront : ∀ c ∈ front, (c != '@') = true)
    (hback : ∀ c ∈ back.head?, (c != '@') = false) :
    urlHit (authorityMark ++ (front ++ back)) =
      if back = [] ∨ '\n' ∈ front ∨ ' ' ∈ front then none
      else some ⟨3, some (front.length + 1, urlMark)⟩ := by
  have hbegins : authorityMark.isPrefixOf (authorityMark ++ (front ++ back)) = true :=
    List.isPrefixOf_iff_prefix.2 (List.prefix_append _ _)
  have hdrop : (authorityMark ++ (front ++ back)).drop 3 = front ++ back := rfl
  have hlength : front.length = (front ++ back).length ↔ back = [] := by simp
  simp only [urlHit, hbegins, if_true, hdrop, takeWhile_span hfront hback, hlength,
    Bool.or_eq_true, List.contains_iff_mem, urlMark]
  by_cases hnil : back = []
  · simp [hnil]
  · simp [hnil]

/-- What a pass finds at a credential. -/
lemma urlHit_cases (h : urlHit text = some hit) : ∃ authority back,
    text = authorityMark ++ (authority ++ '@' :: back) ∧ (∀ c ∈ authority, (c != '@') = true) ∧
      '\n' ∉ authority ∧ ' ' ∉ authority ∧ hit = ⟨3, some (authority.length + 1, urlMark)⟩ := by
  by_cases hbegins : authorityMark <+: text
  · obtain ⟨after, rfl⟩ := hbegins
    obtain ⟨front, back, rfl, hfront, hback⟩ := exists_span (· != '@') after
    rw [urlHit_append hfront hback] at h
    split_ifs at h with hnone
    rw [not_or, not_or] at hnone
    obtain ⟨hne, hline, hspace⟩ := hnone
    cases back with
    | nil => exact absurd rfl hne
    | cons c back =>
      obtain rfl : c = '@' := by simpa using hback c rfl
      exact ⟨front, back, rfl, hfront, hline, hspace, (Option.some.inj h).symm⟩
  · rw [urlHit_of_not_begins hbegins] at h
    cases h

/-- What the passes behind this one may do: their marks begin with a bracket, their spans have no
break, and they bring in no `@`. -/
def UrlSwap (span mark : List Char) : Prop :=
  mark.head? = some '[' ∧ '\n' ∉ span ∧ ' ' ∉ span ∧ ('@' ∈ mark → '@' ∈ span)

lemma mem_output_at (h : Swaps UrlSwap pieces) (hat : '@' ∈ output pieces) : '@' ∈ input pieces := by
  induction pieces with
  | nil => exact hat
  | cons piece pieces ih =>
    rw [output_cons, List.mem_append] at hat
    rw [input_cons, List.mem_append]
    refine hat.imp (fun hhere => ?_) (ih h.tail)
    cases piece with
    | keep c => exact hhere
    | swap span mark => exact h.head.2.2.2 hhere

/-- A break before the first `@` stays before it. -/
lemma mem_takeWhile_output (h : Swaps UrlSwap pieces) {d : Char} (hd : d = '\n' ∨ d = ' ')
    (hmem : d ∈ (input pieces).takeWhile (· != '@')) :
    d ∈ (output pieces).takeWhile (· != '@') := by
  induction pieces with
  | nil => exact hmem
  | cons piece pieces ih =>
    cases piece with
    | keep c =>
      rw [input_cons, Piece.input_keep, List.singleton_append, List.takeWhile_cons] at hmem
      rw [output_cons, Piece.output_keep, List.singleton_append, List.takeWhile_cons]
      split_ifs at hmem ⊢ with hc
      · rcases List.mem_cons.1 hmem with rfl | hmem
        · exact List.mem_cons_self
        · exact List.mem_cons_of_mem _ (ih h.tail hmem)
      · cases hmem
    | swap span mark =>
      obtain ⟨-, hline, hspace, hat⟩ := h.head
      rw [input_cons, Piece.input_swap] at hmem
      rw [output_cons, Piece.output_swap]
      have hbreak : d ∉ span := by
        rcases hd with rfl | rfl
        · exact hline
        · exact hspace
      by_cases hspan : '@' ∈ span
      · -- what stands before the `@` is in the span, which has no break
        have hcut : (span.takeWhile (· != '@')).length ≠ span.length := by
          intro hlength
          have hself := (List.takeWhile_prefix (p := (· != '@')) (l := span)).eq_of_length hlength
          simpa using List.takeWhile_eq_self_iff.1 hself '@' hspan
        rw [List.takeWhile_append, if_neg hcut] at hmem
        exact absurd ((List.takeWhile_sublist _).subset hmem) hbreak
      · have hall : ∀ {word : List Char}, '@' ∉ word → ∀ c ∈ word, (c != '@') = true := by
          intro word hword c hc
          simpa using fun heq => hword (by rwa [heq] at hc)
        rw [List.takeWhile_append_of_pos (hall hspan), List.mem_append] at hmem
        rw [List.takeWhile_append_of_pos (hall fun hmark => hspan (hat hmark)), List.mem_append]
        exact .inr (ih h.tail (hmem.resolve_left hbreak))

/-- Where nothing is recognised, nothing is once the text behind is rewritten. -/
lemma urlHit_of_output (h : Swaps UrlSwap pieces) (hnone : urlHit (c :: input pieces) = none) :
    urlHit (c :: output pieces) = none := by
  cases hhit : urlHit (c :: output pieces) with
  | none => rfl
  | some hit =>
    obtain ⟨authority, back, heq, hplain, hline, hspace, -⟩ := urlHit_cases hhit
    have hhead : Swaps (fun _ mark => mark.head? = some '[') pieces := h.imp fun _ _ h => h.1
    obtain ⟨rfl, hout⟩ := List.cons.inj heq
    replace hout : output pieces = '/' :: '/' :: (authority ++ '@' :: back) := hout
    obtain ⟨ps, rfl, hps⟩ := exists_keep hhead hout (by decide)
    obtain ⟨rest, rfl, hrest⟩ := exists_keep hhead.tail hps (by decide)
    have hrewritten : Swaps UrlSwap rest := h.tail.tail
    obtain ⟨front, after, hin, hfront, hafter⟩ := exists_span (· != '@') (input rest)
    have hnone' : urlHit (authorityMark ++ (front ++ after)) = none := by rw [← hin]; exact hnone
    rw [urlHit_append hfront hafter] at hnone'
    split_ifs at hnone' with hcase
    have hauthority : (output rest).takeWhile (· != '@') = authority := by
      rw [hrest]
      exact takeWhile_span hplain (by simp)
    have htake : (input rest).takeWhile (· != '@') = front := by
      rw [hin, takeWhile_span hfront hafter]
    rcases hcase with rfl | hbreak | hbreak
    · have hat : '@' ∈ input rest := mem_output_at hrewritten (by rw [hrest]; simp)
      rw [hin, List.append_nil] at hat
      simpa using hfront '@' hat
    · rw [← htake] at hbreak
      have hmem := mem_takeWhile_output hrewritten (.inl rfl) hbreak
      rw [hauthority] at hmem
      exact absurd hmem hline
    · rw [← htake] at hbreak
      have hmem := mem_takeWhile_output hrewritten (.inr rfl) hbreak
      rw [hauthority] at hmem
      exact absurd hmem hspace

lemma urlSettled_nil : UrlSettled [] := fun rest hrest =>
  .inl (by rw [List.suffix_nil.1 hrest]; exact urlHit_nil)

lemma urlSettled_cons_iff : UrlSettled (c :: text) ↔
    (urlHit (c :: text) = none ∨ ∃ back, c :: text = authorityMark ++ (urlMark ++ back)) ∧
      UrlSettled text := by
  simp only [UrlSettled, List.suffix_cons_iff, forall_eq_or_imp]

lemma UrlSettled.suffix (h : UrlSettled text) (hrest : rest <:+ text) : UrlSettled rest :=
  fun later hlater => h later (hlater.trans hrest)

lemma UrlSettled.behind (h : UrlSettled (front ++ text)) : UrlSettled text :=
  h.suffix (List.suffix_append _ _)

/-- A word without a colon. -/
lemma UrlSettled.word (h : UrlSettled text) (hfront : ':' ∉ front) : UrlSettled (front ++ text) := by
  induction front with
  | nil => exact h
  | cons c front ih =>
    obtain ⟨hne, hrest⟩ : ':' ≠ c ∧ ':' ∉ front := by simpa using hfront
    refine urlSettled_cons_iff.2 ⟨.inl (urlHit_of_not_begins fun hbegins => ?_), ih hrest⟩
    exact hne (List.cons_prefix_cons.1 hbegins).1

/-- A colon with something else than an authority behind it. -/
lemma UrlSettled.colon (h : UrlSettled text) (hhead : text.head? ≠ some '/') :
    UrlSettled (':' :: text) := by
  refine urlSettled_cons_iff.2 ⟨.inl (urlHit_of_not_begins fun hbegins => hhead ?_), h⟩
  obtain ⟨rest, hrest⟩ := (List.cons_prefix_cons.1 hbegins).2
  rw [← hrest]
  rfl

/-- The passes' own marks. -/
lemma UrlSettled.mark (h : UrlSettled text) (word : List Char) (hword : ':' ∉ word)
    (hhead : word.head?.any (· ≠ '/') = true) :
    UrlSettled ("[redacted".toList ++ ':' :: (word ++ text)) := by
  refine .word (.colon (.word h hword) fun hslash => ?_) (by decide)
  cases word with
  | nil => simp at hhead
  | cons c word => simp_all

lemma UrlSettled.of_urlMark (h : UrlSettled text) : UrlSettled (urlMark ++ text) :=
  h.mark "url]@".toList (by decide) (by decide)

lemma UrlSettled.of_authorization (h : UrlSettled text) :
    UrlSettled (marker .authorization ++ text) :=
  h.mark "auth]".toList (by decide) (by decide)

lemma UrlSettled.of_keyMark {entry : String × Nat} (hentry : entry ∈ keyPrefixes)
    (h : UrlSettled text) : UrlSettled (keyMark entry.1 ++ text) := by
  have hprefixes : ∀ entry ∈ keyPrefixes, ':' ∉ "key ".toList ++ entry.1.toList ++ [']'] := by
    decide
  have hsettled := h.mark _ (hprefixes entry hentry) (by simp)
  simpa [keyMark] using hsettled

/-- A mark behind a scheme. -/
lemma UrlSettled.marked (h : UrlSettled text) :
    UrlSettled (authorityMark ++ (urlMark ++ text)) := by
  have hmark : UrlSettled ('/' :: '/' :: (urlMark ++ text)) :=
    @UrlSettled.word _ ['/', '/'] h.of_urlMark (by decide)
  exact urlSettled_cons_iff.2 ⟨.inr ⟨text, rfl⟩, hmark⟩

/-- Where a rewriting keeps a symbol at which nothing was recognised, nothing is. -/
lemma UrlSettled.keep (h : Swaps UrlSwap pieces) (hnone : urlHit (c :: input pieces) = none)
    (hrest : UrlSettled (output pieces)) : UrlSettled (c :: output pieces) :=
  urlSettled_cons_iff.2 ⟨.inl (urlHit_of_output h hnone), hrest⟩

lemma result_url {authority : List Char} (hplain : ∀ c ∈ authority, (c != '@') = true)
    (hline : '\n' ∉ authority) (hspace : ' ' ∉ authority) (back : List Char) :
    urlScanner.result () (authorityMark ++ (authority ++ '@' :: back)) =
      authorityMark ++ (urlMark ++ urlScanner.result () back) := by
  have hat : ∀ c ∈ ('@' :: back).head?, (c != '@') = false := by simp
  have hhit := urlHit_append hplain hat
  rw [if_neg (by simp [hline, hspace])] at hhit
  rw [List.append_cons] at hhit ⊢
  have hfound : urlHit (authorityMark ++ ((authority ++ ['@']) ++ back)) =
      some ⟨3, some ((authority ++ ['@']).length, urlMark)⟩ := by
    rw [hhit, List.length_append]
    rfl
  exact Scanner.result_of_swap (s := urlScanner) (q := ()) hfound

lemma swaps_url (k : Nat) (text : List Char) :
    Swaps (fun span mark => UrlSwap span mark ∧ mark = urlMark) (urlScanner.pieces () k text) := by
  refine Scanner.swaps_pieces (fun q text hit hhit swap hswap => ?_) () k text
  obtain ⟨authority, back, rfl, hplain, hline, hspace, rfl⟩ :=
    urlHit_cases (show urlHit text = some hit from hhit)
  obtain rfl := Option.some.inj hswap
  have hspan : ((authorityMark ++ (authority ++ '@' :: back)).drop 3).take (authority.length + 1) =
      authority ++ ['@'] := by
    show (authority ++ '@' :: back).take (authority.length + 1) = authority ++ ['@']
    simp [List.take_append]
  rw [hspan]
  exact ⟨⟨rfl, by simp [hline], by simp [hspace], by simp⟩, rfl⟩

/-- What the pass leaves is settled for it. -/
lemma urlSettled_result (text : List Char) : UrlSettled (urlScanner.result () text) := by
  induction hn : text.length using Nat.strong_induction_on generalizing text with
  | h m ih =>
    cases text with
    | nil => exact urlSettled_nil
    | cons c text =>
      cases hhit : urlScanner.hit () (c :: text) with
      | none =>
        rw [Scanner.result_cons hhit]
        refine .keep ((swaps_url 0 text).imp fun _ _ h => h.1) ?_
          (ih text.length (by simp at hn; omega) _ rfl)
        rwa [Scanner.input_pieces_zero]
      | some hit =>
        obtain ⟨authority, back, htext, hplain, hline, hspace, -⟩ :=
          urlHit_cases (show urlHit (c :: text) = some hit from hhit)
        rw [htext] at hn ⊢
        rw [result_url hplain hline hspace]
        exact (ih back.length (by simp at hn; omega) _ rfl).marked

/-- A settled text stays as it is. -/
lemma UrlSettled.result_eq (h : UrlSettled text) : urlScanner.result () text = text := by
  induction hn : text.length using Nat.strong_induction_on generalizing text with
  | h m ih =>
    cases text with
    | nil => rfl
    | cons c text =>
      obtain ⟨hnone | ⟨back, htext⟩, hrest⟩ := urlSettled_cons_iff.1 h
      · rw [Scanner.result_cons (s := urlScanner) hnone]
        exact congrArg _ (ih text.length (by simp at hn; omega) hrest rfl)
      · have hback : UrlSettled back := by
          rw [htext] at h
          exact h.behind.behind
        rw [htext] at hn ⊢
        have hrest := ih back.length (by simp [authorityMark] at hn; omega) hback rfl
        have hmark : urlMark = marker .urlCredentials ++ ['@'] := rfl
        rw [hmark, List.append_assoc, List.singleton_append,
          result_url (by decide) (by decide) (by decide), hrest, hmark]
        simp

lemma urlSwap_authorization (q : Bool) (k : Nat) (text : List Char) :
    Swaps UrlSwap (authorizationScanner.pieces q k text) := by
  refine Scanner.swaps_pieces (fun q text hit hhit swap hswap => ?_) q k text
  obtain ⟨rfl, word, rest, hword, rfl, hrest | ⟨c, value, rfl, hc⟩⟩ :=
    authorizationHit_cases (show authorizationHit q text = some hit from hhit)
  · obtain rfl := Option.some.inj ((authorizationHit_word hword hrest).symm.trans hhit)
    cases hswap
  · by_cases hshort : (value.takeWhile isValueChar).length < 4
    · obtain rfl := Option.some.inj ((authorizationHit_short hword hc hshort).symm.trans hhit)
      cases hswap
    · obtain rfl := Option.some.inj ((authorizationHit_value hword hc hshort).symm.trans hhit)
      obtain rfl := Option.some.inj hswap
      obtain ⟨front, back, rfl, hfront, hback⟩ := exists_span isValueChar value
      have hspan : ((word ++ c :: (front ++ back)).drop (word.length + 1)).take
          ((front ++ back).takeWhile isValueChar).length = front := by
        rw [takeWhile_span hfront hback, List.append_cons, List.drop_left' (by simp)]
        exact List.take_left
      have hmark : '@' ∉ marker .authorization := by decide
      rw [hspan]
      exact ⟨rfl, fun hmem => absurd (hfront _ hmem) (by decide),
        fun hmem => absurd (hfront _ hmem) (by decide), fun hmem => absurd hmem hmark⟩

lemma urlSwap_keys (b : Bool) (k : Nat) (text : List Char) :
    Swaps UrlSwap ((keyPrefixScanner n).pieces b k text) := by
  refine (swaps_keys b k text).imp fun span mark ⟨⟨entry, hentry, hmark⟩, hspan⟩ => ?_
  have hat : ∀ entry ∈ keyPrefixes, '@' ∉ keyMark entry.1 := by decide
  subst hmark
  exact ⟨head?_keyMark _, fun hmem => absurd (hspan _ hmem) (by decide),
    fun hmem => absurd (hspan _ hmem) (by decide), fun hmem => absurd hmem (hat entry hentry)⟩

/-- The mark of a credential carries no key. -/
lemma result_keys_urlMark (text : List Char) :
    (keyPrefixScanner n).result true (urlMark ++ text) =
      urlMark ++ (keyPrefixScanner n).result true text := by
  have hmark : ∀ text, urlMark ++ text = '[' :: ("redacted:url".toList ++ ']' :: '@' :: text) := by
    simp [urlMark, marker, SecretKind.asStr]
  rw [hmark, hmark, result_keys_symbol (by decide),
    result_keys_token (by decide) (head_symbol (by decide)) (matchingPrefix_redacted rfl),
    result_keys_symbol (by decide), result_keys_symbol (by decide)]

/-- The pass over authorization values reads past a word in which no scheme begins. -/
lemma result_plain (hfront : ∀ d ∈ front, d.toLower ≠ 'b') (hc : c.toLower ≠ 'b') (q : Bool) :
    authorizationScanner.result q (front ++ c :: text) =
      front ++ c :: authorizationScanner.result (!isTokenChar c) text := by
  induction front generalizing q with
  | nil => exact Scanner.result_cons (authorizationHit_of_head hc)
  | cons d front ih =>
    have hd : authorizationScanner.hit q (d :: (front ++ c :: text)) = none :=
      authorizationHit_of_head (hfront d List.mem_cons_self)
    rw [List.cons_append, Scanner.result_cons hd,
      ih (fun e he => hfront e (List.mem_cons_of_mem _ he))]
    rfl

/-- The pass over authorization values leaves a settled text settled. -/
lemma UrlSettled.result_authorization (h : UrlSettled text) (q : Bool) :
    UrlSettled (authorizationScanner.result q text) := by
  induction hn : text.length using Nat.strong_induction_on generalizing text q with
  | h m ih =>
    cases text with
    | nil => exact urlSettled_nil
    | cons c text =>
      cases hhit : authorizationScanner.hit q (c :: text) with
      | none =>
        have hstep := urlSettled_cons_iff.1 h
        obtain ⟨hnone | ⟨back, htext⟩, hrest⟩ := hstep
        · rw [Scanner.result_cons hhit]
          refine .keep (urlSwap_authorization _ _ _) ?_
            (ih text.length (by simp at hn; omega) hrest _ rfl)
          rwa [Scanner.input_pieces_zero]
        · have hback : UrlSettled back := by
            rw [htext] at h
            exact h.behind.behind
          have hmark : authorityMark ++ (urlMark ++ back) =
              (authorityMark ++ marker .urlCredentials) ++ '@' :: back := by simp [urlMark]
          rw [htext] at hn ⊢
          have hrest := ih back.length (by simp [authorityMark] at hn; omega) hback true rfl
          have hstate : (!isTokenChar '@') = true := by decide
          rw [hmark, result_plain (by decide) (by decide), hstate]
          simpa [urlMark] using hrest.marked
      | some hit =>
        obtain ⟨rfl, word, rest, hword, htext, hrest | ⟨d, value, rfl, hd⟩⟩ :=
          authorizationHit_cases (show authorizationHit q (c :: text) = some hit from hhit)
        all_goals
          have hfive := hword.shape.1
          have hcolon : ':' ∉ word := fun hmem => absurd (hword.isAlpha _ hmem) (by decide)
          rw [htext] at h hn ⊢
          rw [List.length_append] at hn
        · rw [result_word hword hrest]
          exact .word (ih rest.length (by omega) h.behind true rfl) hcolon
        · rw [List.length_cons] at hn
          obtain ⟨hfound, hvalue⟩ := urlSettled_cons_iff.1 h.behind
          by_cases hshort : (value.takeWhile isValueChar).length < 4
          · rw [result_short hword hd hshort]
            refine .word ?_ hcolon
            rcases hfound with hnone | ⟨back, hmarked⟩
            · refine .keep (urlSwap_authorization _ _ _) ?_
                (ih value.length (by omega) hvalue _ rfl)
              rwa [Scanner.input_pieces_zero]
            · -- the mark of a credential is longer than a short value
              obtain ⟨-, hvalue⟩ := List.cons.inj hmarked
              have hlong := @length_le_takeWhile Char isValueChar "//[r".toList value (by decide)
                ⟨"edacted:url]@".toList ++ back, by rw [hvalue]; rfl⟩
              exact absurd hshort (not_lt.2 hlong)
          · obtain ⟨front, back, rfl, hfront, hback⟩ := exists_span isValueChar value
            rw [takeWhile_span hfront hback] at hshort
            rw [List.length_append] at hn
            rw [result_value hword hd hfront hback hshort]
            have hrest := ih back.length (by omega) hvalue.behind true rfl
            refine .word ?_ hcolon
            refine urlSettled_cons_iff.2 ⟨.inl (urlHit_of_not_begins fun hbegins => ?_),
              hrest.of_authorization⟩
            have hslash := (List.cons_prefix_cons.1 hbegins).2
            exact absurd (List.cons_prefix_cons.1 hslash).1 (by decide)

/-- The pass over keys leaves a settled text settled. -/
lemma UrlSettled.result_keys (h : UrlSettled text) (b : Bool) :
    UrlSettled ((keyPrefixScanner n).result b text) := by
  induction hn : text.length using Nat.strong_induction_on generalizing text b with
  | h m ih =>
    cases text with
    | nil => exact urlSettled_nil
    | cons c text =>
      cases hhit : (keyPrefixScanner n).hit b (c :: text) with
      | none =>
        obtain ⟨hnone | ⟨back, htext⟩, hrest⟩ := urlSettled_cons_iff.1 h
        · rw [Scanner.result_cons hhit]
          refine .keep (urlSwap_keys _ _ _) ?_ (ih text.length (by simp at hn; omega) hrest _ rfl)
          rwa [Scanner.input_pieces_zero]
        · have hback : UrlSettled back := by
            rw [htext] at h
            exact h.behind.behind
          rw [htext] at hn ⊢
          have hrest := ih back.length (by simp [authorityMark] at hn; omega) hback true rfl
          have hbracket : ∀ d ∈ (urlMark ++ back).head?, isTokenChar d = false :=
            head_symbol (show isTokenChar '[' = false by decide)
          have hscheme : (keyPrefixScanner n).result b (authorityMark ++ (urlMark ++ back)) =
              authorityMark ++ (keyPrefixScanner n).result true (urlMark ++ back) :=
            result_keys_token (by decide) hbracket
              (matchingPrefix_short (by decide)) b
          rw [hscheme, result_keys_urlMark]
          exact hrest.marked
      | some hit =>
        obtain ⟨rfl, token, back, htext, htoken, hback, hne, entry, hentry, hkey, -⟩ :=
          keyPrefixHit_cases (show keyPrefixHit n b (c :: text) = some hit from hhit)
        rw [htext] at h hn ⊢
        rw [result_keys_swapped htoken hback hne hkey]
        have hpos := List.length_pos_of_ne_nil hne
        exact (ih back.length (by simp at hn; omega) h.behind true rfl).of_keyMark hentry

end Urls

end Rupi
