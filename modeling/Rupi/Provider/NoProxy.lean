import Mathlib
import Rupi.Core.Digits
import Rupi.Core.Text

/-!
The list of targets that go past a proxy.

- `noProxyMatches`: what the relays make of a list.
- `Names`, `Malformed`: the entries of the grammar, and what is left of an entry with a bad port or
  bracket; `entryTarget_eq_some`.
- `Matches`: the target is in the list by its grammar.
- **`matches_iff`**: when the relays say so.
- `matches_fold`, `matches_perm`: the grammar does not look at case, or at the order of entries.
-/

namespace Rupi

namespace NoProxy

/-! ### The list -/

/-- A comma or ASCII white space. -/
def isSeparator (c : Char) : Bool := c = ',' || [' ', '\t', '\n', '\x0c', '\r'].contains c

/-- The entries of a list, without white space around them. -/
def entries (list : List Char) : List (List Char) :=
  ((list.splitOnP isSeparator).map trimChars).filter (· ≠ [])

def parsePort (value : List Char) : Option ℕ := parseUnsigned 65536 value

/-- The pattern of an entry, and the port it expects. -/
def entryTarget : List Char → Option (List Char × Option ℕ)
  | '[' :: rest =>
      (splitOnce ']' rest).map fun (pattern, suffix) =>
        (pattern, (stripFront [':'] suffix).bind parsePort)
  | entry =>
      if entry.count ':' = 1 then
        (rsplitOnce ':' entry).map fun (pattern, port) => (pattern, parsePort port)
      else some (entry, none)

/-- `str::trim_start_matches` and `str::trim_end_matches` of dots. -/
def trimDots (text : List Char) : List Char := (text.dropWhile (· = '.')).rdropWhile (· = '.')

/-- `str::to_ascii_lowercase`. -/
def fold (text : List Char) : List Char := text.map Char.toLower

/-- `str::strip_suffix`. -/
def stripBack (back text : List Char) : Option (List Char) :=
  if back <:+ text then some (text.take (text.length - back.length)) else none

/-- The comparison of a host with a pattern. -/
def hostMatches (host pattern : List Char) : Bool :=
  if pattern.isEmpty then false
  else
    decide (fold host = fold pattern) ||
      (stripBack pattern host).any fun suffix => ['.'].isSuffixOf suffix && 1 < suffix.length

/-- An entry of the list, for a host without dots at its end. -/
def entryMatches (host : List Char) (port : ℕ) (entry : List Char) : Bool :=
  if entry = ['*'] then true
  else
    (entryTarget entry).any fun (pattern, expected) =>
      if expected.any (· ≠ port) then false else hostMatches host (trimDots pattern)

/-- `no_proxy_matches`, of the relay of either crate. -/
def noProxyMatches (host : List Char) (port : ℕ) (list : List Char) : Bool :=
  (entries list).any (entryMatches (host.rdropWhile (· = '.')) port)

/-! ### The grammar -/

/-- A decimal port. -/
def IsPort (value : List Char) (n : ℕ) : Prop := parseDigits value = some n ∧ n ≤ 65535

/-- An entry: a name or an address, or an address in brackets, with or without a port. A name has no
colon, and a bare address has more than one. -/
inductive Names : List Char → List Char → Option ℕ → Prop where
  | plain {name : List Char} (hcolon : name.count ':' ≠ 1) (hbracket : name.head? ≠ some '[') :
      Names name name none
  | port {name value : List Char} {n : ℕ} (hcolon : ':' ∉ name) (hbracket : name.head? ≠ some '[')
      (hport : IsPort value n) : Names (name ++ ':' :: value) name (some n)
  | bracket {name : List Char} (hclose : ']' ∉ name) : Names ('[' :: (name ++ [']'])) name none
  | bracketPort {name value : List Char} {n : ℕ} (hclose : ']' ∉ name) (hport : IsPort value n) :
      Names ('[' :: (name ++ ']' :: ':' :: value)) name (some n)

/-- An entry with something behind the name that is no port: its name, and what stands for the
port. -/
inductive Malformed : List Char → List Char → Option (List Char) → Prop where
  | port {name value : List Char} (hcolon : ':' ∉ name) (hvalue : ':' ∉ value)
      (hbracket : name.head? ≠ some '[') (hport : ∀ n, ¬IsPort value n) :
      Malformed (name ++ ':' :: value) name (some value)
  | bracket {name suffix : List Char} (hclose : ']' ∉ name) (hsuffix : suffix ≠ [])
      (hcolon : suffix.head? ≠ some ':') : Malformed ('[' :: (name ++ ']' :: suffix)) name none
  | bracketPort {name value : List Char} (hclose : ']' ∉ name) (hport : ∀ n, ¬IsPort value n) :
      Malformed ('[' :: (name ++ ']' :: ':' :: value)) name (some value)

/-- A host is a name or ends with it, behind a dot. -/
def IsUnder (host name : List Char) : Prop := host = name ∨ ∃ front, host = front ++ '.' :: name

/-- A host without dots at its end is named by an entry, whatever their case. -/
def Under (host name : List Char) : Prop :=
  trimDots name ≠ [] ∧ IsUnder (fold host) (fold (trimDots name))

/-- An entry matches a target. -/
def EntryMatches (host : List Char) (port : ℕ) (entry : List Char) : Prop :=
  entry = ['*'] ∨
    ∃ name expected, Names entry name expected ∧ (∀ n ∈ expected, n = port) ∧ Under host name

/-- A list matches a target. -/
def Matches (host : List Char) (port : ℕ) (list : List Char) : Prop :=
  ∃ entry ∈ entries list, EntryMatches (host.rdropWhile (· = '.')) port entry

/-! ### The code and the grammar -/

/-- A host is a name in any case, or ends with it in its own case, behind a dot with something in
front of it. -/
def Plainly (host name : List Char) : Prop :=
  trimDots name ≠ [] ∧ (fold host = fold (trimDots name) ∨
    ∃ front, front ≠ [] ∧ host = front ++ '.' :: trimDots name)

section Entries

variable {host name pattern entry value suffix : List Char} {port n : ℕ} {expected : Option ℕ}

lemma parsePort_of_isPort (h : IsPort value n) : parsePort value = some n := by
  obtain ⟨hparse, hle⟩ := h
  rw [parseDigits] at hparse
  split_ifs at hparse with hdigits
  cases hparse
  exact parseUnsigned_digits hdigits.1 hdigits.2 (Nat.lt_succ_of_le hle)

lemma entryTarget_bracket (hclose : ']' ∉ name) :
    entryTarget ('[' :: (name ++ ']' :: suffix)) =
      some (name, (stripFront [':'] suffix).bind parsePort) := by
  rw [entryTarget, splitOnce_append hclose, Option.map_some]

lemma entryTarget_plain (h : entry.head? ≠ some '[') : entryTarget entry =
    if entry.count ':' = 1 then
      (rsplitOnce ':' entry).map fun (pattern, port) => (pattern, parsePort port)
    else some (entry, none) := by
  rw [entryTarget.eq_def]
  split
  · exact absurd rfl h
  · rfl

lemma stripFront_colon : stripFront [':'] (':' :: value) = some value := by
  rw [stripFront, if_pos (show [':'] <+: ':' :: value from ⟨value, rfl⟩)]
  rfl

lemma stripFront_other (h : suffix.head? ≠ some ':') : stripFront [':'] suffix = none := by
  rw [stripFront, if_neg]
  rintro ⟨rest, rfl⟩
  exact h rfl

/-- The port of an entry is well formed, or what stands for it is not. -/
lemma entryTarget_port (hcolon : ':' ∉ name) (hvalue : ':' ∉ value)
    (hbracket : name.head? ≠ some '[') :
    entryTarget (name ++ ':' :: value) = some (name, parsePort value) := by
  have hhead : (name ++ ':' :: value).head? ≠ some '[' := by
    cases name with
    | nil => exact fun h => nomatch h
    | cons c name => exact hbracket
  have hcount : (name ++ ':' :: value).count ':' = 1 := by
    rw [List.count_append, List.count_cons_self, List.count_eq_zero.2 hcolon,
      List.count_eq_zero.2 hvalue]
  rw [entryTarget_plain hhead, if_pos hcount, rsplitOnce_append hvalue, Option.map_some]

lemma isPort_no_colon (h : IsPort value n) : ':' ∉ value := by
  obtain ⟨hparse, -⟩ := h
  rw [parseDigits] at hparse
  split_ifs at hparse with hdigits
  intro hmem
  exact absurd (List.all_eq_true.1 hdigits.2 ':' hmem) (by decide)

/-- **The pattern of an entry** is the name of the grammar, or of an entry with something behind the
name that is no port. -/
theorem entryTarget_eq_some : entryTarget entry = some (name, expected) ↔
    Names entry name expected ∨
      ∃ value, Malformed entry name value ∧ expected = value.bind parsePort := by
  constructor
  · intro h
    by_cases hbracket : entry.head? = some '['
    · obtain ⟨rest, rfl⟩ := List.head?_eq_some_iff.1 hbracket
      rw [entryTarget, Option.map_eq_some_iff] at h
      obtain ⟨⟨pattern, suffix⟩, hsplit, heq⟩ := h
      obtain ⟨rfl, hclose⟩ := splitOnce_eq_some hsplit
      simp only [Prod.mk.injEq] at heq
      obtain ⟨rfl, rfl⟩ := heq
      cases suffix with
      | nil => exact Or.inl (.bracket hclose)
      | cons c value =>
        by_cases hcolon : c = ':'
        · subst hcolon
          rw [stripFront_colon, Option.bind_some]
          by_cases hport : ∃ n, IsPort value n
          · obtain ⟨n, hport⟩ := hport
            rw [parsePort_of_isPort hport]
            exact Or.inl (.bracketPort hclose hport)
          · exact Or.inr ⟨some value, .bracketPort hclose (not_exists.1 hport), rfl⟩
        · have hhead : (c :: value).head? ≠ some ':' := fun h => hcolon (Option.some.inj h)
          rw [stripFront_other hhead]
          exact Or.inr ⟨none, .bracket hclose (List.cons_ne_nil _ _) hhead, rfl⟩
    · rw [entryTarget_plain hbracket] at h
      split_ifs at h with hcount
      · rw [Option.map_eq_some_iff] at h
        obtain ⟨⟨pattern, value⟩, hsplit, heq⟩ := h
        obtain ⟨rfl, hvalue⟩ := rsplitOnce_eq_some hsplit
        simp only [Prod.mk.injEq] at heq
        obtain ⟨rfl, rfl⟩ := heq
        rw [List.count_append, List.count_cons_self] at hcount
        have hcolon : ':' ∉ pattern := List.count_eq_zero.1 (by omega)
        have hhead : pattern.head? ≠ some '[' := by
          cases pattern with
          | nil => exact fun h => nomatch h
          | cons c pattern => exact hbracket
        by_cases hport : ∃ n, IsPort value n
        · obtain ⟨n, hport⟩ := hport
          rw [parsePort_of_isPort hport]
          exact Or.inl (.port hcolon hhead hport)
        · exact Or.inr ⟨some value, .port hcolon hvalue hhead (not_exists.1 hport), rfl⟩
      · cases h
        exact Or.inl (.plain hcount hbracket)
  · rintro (hname | ⟨value, hmalformed, rfl⟩)
    · cases hname with
      | plain hcolon hbracket => rw [entryTarget_plain hbracket, if_neg hcolon]
      | port hcolon hbracket hport =>
        rw [entryTarget_port hcolon (isPort_no_colon hport) hbracket, parsePort_of_isPort hport]
      | bracket hclose => exact entryTarget_bracket hclose
      | bracketPort hclose hport =>
        rw [entryTarget_bracket hclose, stripFront_colon, Option.bind_some,
          parsePort_of_isPort hport]
    · cases hmalformed with
      | port hcolon hvalue hbracket => exact entryTarget_port hcolon hvalue hbracket
      | bracket hclose hsuffix hcolon =>
        rw [entryTarget_bracket hclose, stripFront_other hcolon, Option.bind_none]
      | bracketPort hclose => rw [entryTarget_bracket hclose, stripFront_colon]

/-- What is in front of a suffix ends with a dot that is not its first character. -/
lemma stripBack_any {front : List Char} (h : host = front ++ pattern) :
    ((stripBack pattern host).any fun suffix => ['.'].isSuffixOf suffix && 1 < suffix.length) =
      (['.'].isSuffixOf front && 1 < front.length) := by
  subst h
  rw [stripBack, if_pos (List.suffix_append _ _), List.length_append, Nat.add_sub_cancel,
    List.take_left', Option.any_some]
  rfl

/-- The comparison of the code. -/
lemma hostMatches_iff : hostMatches host (trimDots name) = true ↔ Plainly host name := by
  rw [hostMatches, Plainly]
  by_cases hempty : trimDots name = []
  · rw [if_pos (List.isEmpty_iff.2 hempty)]
    exact iff_of_false Bool.false_ne_true fun h => h.1 hempty
  · rw [if_neg fun h => hempty (List.isEmpty_iff.1 h), Bool.or_eq_true, decide_eq_true_eq]
    refine (or_congr_right ?_).trans (and_iff_right hempty).symm
    by_cases hsuffix : trimDots name <:+ host
    · obtain ⟨whole, rfl⟩ := hsuffix
      rw [stripBack_any rfl, Bool.and_eq_true, List.isSuffixOf_iff_suffix, decide_eq_true_eq]
      constructor
      · rintro ⟨⟨front, rfl⟩, hlen⟩
        refine ⟨front, ?_, by rw [List.append_assoc, List.singleton_append]⟩
        rintro rfl
        exact absurd hlen (lt_irrefl 1)
      · rintro ⟨front, hne, heq⟩
        rw [List.append_cons, List.append_left_inj] at heq
        subst heq
        have := List.length_pos_iff.2 hne
        exact ⟨List.suffix_append _ _, by rw [List.length_append, List.length_singleton]; omega⟩
    · rw [stripBack, if_neg hsuffix]
      refine iff_of_false Bool.false_ne_true ?_
      rintro ⟨front, -, rfl⟩
      exact hsuffix ⟨front ++ ['.'], by rw [List.append_assoc, List.singleton_append]⟩

lemma under_of_plainly (h : Plainly host name) : Under host name := by
  obtain ⟨hne, heq | ⟨front, -, rfl⟩⟩ := h
  · exact ⟨hne, Or.inl heq⟩
  · refine ⟨hne, Or.inr ⟨fold front, ?_⟩⟩
    rw [fold, List.map_append, List.map_cons]
    rfl

end Entries

/-! ### Where they differ -/

/-- An entry that both take for a match. -/
def PlainMatch (host : List Char) (port : ℕ) (entry : List Char) : Prop :=
  entry = ['*'] ∨
    ∃ name expected, Names entry name expected ∧ (∀ n ∈ expected, n = port) ∧ Plainly host name

/-- An entry that matches because what is no port counts for none, or for the number behind its
sign. -/
def StrayMatch (host : List Char) (port : ℕ) (entry : List Char) : Prop :=
  ∃ name value, Malformed entry name value ∧ (∀ n ∈ value.bind parsePort, n = port) ∧
    Plainly host name

/-- An entry that does not match because of the case of the host, or of the dot at its front. -/
def MissedMatch (host : List Char) (port : ℕ) (entry : List Char) : Prop :=
  ∃ name expected, Names entry name expected ∧ (∀ n ∈ expected, n = port) ∧ Under host name ∧
    ¬Plainly host name

section Matches

variable {host host' list list' entry : List Char} {port : ℕ}

lemma any_ne_iff {expected : Option ℕ} :
    ¬expected.any (· ≠ port) = true ↔ ∀ n ∈ expected, n = port := by
  cases expected with
  | none => simp
  | some n => simp

/-- The entries that the code takes for a match. -/
lemma entryMatches_iff :
    entryMatches host port entry = true ↔ PlainMatch host port entry ∨ StrayMatch host port entry := by
  rw [entryMatches]
  split_ifs with hstar
  · exact iff_of_true rfl (Or.inl (Or.inl hstar))
  · have htarget : ∀ target : List Char × Option ℕ,
        (if target.2.any (· ≠ port) then false else hostMatches host (trimDots target.1)) = true ↔
          (∀ n ∈ target.2, n = port) ∧ Plainly host target.1 := by
      intro target
      split_ifs with hport
      · exact iff_of_false not_false fun h => any_ne_iff.2 h.1 hport
      · rw [hostMatches_iff, and_iff_right (any_ne_iff.1 hport)]
    rw [Option.any_eq_true, PlainMatch, StrayMatch, or_iff_right hstar]
    simp only [htarget, Prod.exists, entryTarget_eq_some]
    constructor
    · rintro ⟨name, expected, hname | ⟨value, hmalformed, rfl⟩, hport, hhost⟩
      · exact Or.inl ⟨name, expected, hname, hport, hhost⟩
      · exact Or.inr ⟨name, value, hmalformed, hport, hhost⟩
    · rintro (⟨name, expected, hname, hport, hhost⟩ | ⟨name, value, hmalformed, hport, hhost⟩)
      · exact ⟨name, expected, Or.inl hname, hport, hhost⟩
      · exact ⟨name, _, Or.inr ⟨value, hmalformed, rfl⟩, hport, hhost⟩

/-- The entries that the grammar takes for a match. -/
lemma entryMatches_grammar :
    EntryMatches host port entry ↔ PlainMatch host port entry ∨ MissedMatch host port entry := by
  rw [EntryMatches, PlainMatch, MissedMatch, or_assoc]
  refine or_congr_right ⟨?_, ?_⟩
  · rintro ⟨name, expected, hname, hport, hunder⟩
    by_cases hplain : Plainly host name
    · exact Or.inl ⟨name, expected, hname, hport, hplain⟩
    · exact Or.inr ⟨name, expected, hname, hport, hunder, hplain⟩
  · rintro (⟨name, expected, hname, hport, hplain⟩ | ⟨name, expected, hname, hport, hunder, -⟩)
    · exact ⟨name, expected, hname, hport, under_of_plainly hplain⟩
    · exact ⟨name, expected, hname, hport, hunder⟩

/-- **The relays follow the grammar of the list** if an entry matches plainly, or if there is an entry
that matches in spite of what is behind its name just when there is one that does not match for the
case of the host or the dot at its front. -/
theorem matches_iff (host : List Char) (port : ℕ) (list : List Char) :
    (noProxyMatches host port list = true ↔ Matches host port list) ↔
      ((∃ entry ∈ entries list, PlainMatch (host.rdropWhile (· = '.')) port entry) ∨
        ((∃ entry ∈ entries list, StrayMatch (host.rdropWhile (· = '.')) port entry) ↔
          ∃ entry ∈ entries list, MissedMatch (host.rdropWhile (· = '.')) port entry)) := by
  rw [noProxyMatches, List.any_eq_true, Matches]
  simp only [entryMatches_iff, entryMatches_grammar, and_or_left, exists_or]
  by_cases hplain : ∃ entry ∈ entries list, PlainMatch (host.rdropWhile (· = '.')) port entry
  · simp only [hplain, true_or]
  · simp only [hplain, false_or]

/-- The case of a letter of the host decides. -/
theorem capital_host_missed :
    ¬(noProxyMatches "API.EXAMPLE.COM".toList 443 "example.com".toList = true ↔
      Matches "API.EXAMPLE.COM".toList 443 "example.com".toList) := by
  have hentries : entries "example.com".toList = ["example.com".toList] := by decide +kernel
  have hcode : noProxyMatches "API.EXAMPLE.COM".toList 443 "example.com".toList = false := by
    decide +kernel
  rw [hcode]
  intro h
  refine absurd (h.2 ⟨"example.com".toList, ?_, Or.inr ⟨_, none, .plain ?_ ?_, ?_, ?_, ?_⟩⟩)
    Bool.false_ne_true
  · rw [hentries]
    exact List.mem_singleton_self _
  · decide
  · decide
  · exact fun n hn => nomatch hn
  · decide
  · exact Or.inr ⟨"api".toList, by decide⟩

end Matches

/-! ### Case and order -/

section Case

variable {host host' list list' entry name text : List Char} {port : ℕ} {expected : Option ℕ}

/-- What does not tell the letters from their small ones. -/
lemma toLower_congr {α : Type*} {f : Char → α} (h : ∀ n < 26,
      f (Char.ofNat (65 + n)).toLower = f (Char.ofNat (65 + n))) (c : Char) :
    f c.toLower = f c := by
  by_cases hcapital : 65 ≤ c.toNat ∧ c.toNat ≤ 90
  · have hc : c = Char.ofNat (65 + (c.toNat - 65)) := by
      rw [Nat.add_sub_cancel' hcapital.1, Char.ofNat_toNat]
    rw [hc]
    exact h _ (by omega)
  · rw [Char.toLower, dif_neg]
    exact fun hval => hcapital ⟨hval.1, hval.2⟩

lemma fold_fold : fold (fold text) = fold text := by
  rw [fold, fold, List.map_map]
  exact List.map_congr_left fun c _ => toLower_congr (f := Char.toLower) (by decide) c

lemma dropWhile_fold {p : Char → Bool} (h : ∀ c : Char, p c.toLower = p c) :
    (fold text).dropWhile p = fold (text.dropWhile p) := by
  rw [fold, List.dropWhile_map, funext h (f := p ∘ Char.toLower) (g := p)]
  rfl

lemma rdropWhile_fold {p : Char → Bool} (h : ∀ c : Char, p c.toLower = p c) :
    (fold text).rdropWhile p = fold (text.rdropWhile p) := by
  rw [List.rdropWhile, List.rdropWhile, fold, ← List.map_reverse, ← fold, dropWhile_fold h, fold,
    ← List.map_reverse]
  rfl

lemma toLower_eq_iff {d : Char} (hd : ∀ n < 26,
      decide ((Char.ofNat (65 + n)).toLower = d) = decide (Char.ofNat (65 + n) = d)) {c : Char} :
    c.toLower = d ↔ c = d := by
  have := toLower_congr (f := fun c => decide (c = d)) hd c
  rwa [decide_eq_decide] at this

lemma trimChars_fold : trimChars (fold text) = fold (trimChars text) := by
  have hspace : ∀ c : Char, isWhitespace c.toLower = isWhitespace c := toLower_congr (by decide)
  rw [trimChars_eq, dropWhile_fold hspace, rdropWhile_fold hspace, ← trimChars_eq]

lemma trimDots_fold : trimDots (fold name) = fold (trimDots name) := by
  have hdot : ∀ c : Char, decide (c.toLower = '.') = decide (c = '.') :=
    toLower_congr (f := fun c => decide (c = '.')) (by decide)
  rw [trimDots, dropWhile_fold hdot, rdropWhile_fold hdot, trimDots]

lemma splitOnP_fold {p : Char → Bool} (h : ∀ c : Char, p c.toLower = p c) :
    (fold text).splitOnP p = (text.splitOnP p).map fold := by
  induction text with
  | nil => rfl
  | cons c text ih =>
    rw [fold, List.map_cons, ← fold, List.splitOnP_cons_eq_if_modifyHead,
      List.splitOnP_cons_eq_if_modifyHead, h, ih]
    split_ifs
    · rfl
    · cases text.splitOnP p <;> rfl

lemma entries_fold : entries (fold list) = (entries list).map fold := by
  have hcut : ∀ c : Char, isSeparator c.toLower = isSeparator c := toLower_congr (by decide)
  have htrim : trimChars ∘ fold = fold ∘ trimChars := funext fun text => trimChars_fold
  have hempty : (fun text : List Char => decide (text ≠ [])) ∘ fold = fun text => decide (text ≠ []) :=
    funext fun text => by cases text <;> rfl
  rw [entries, entries, splitOnP_fold hcut, List.map_map, htrim, ← List.map_map, List.filter_map,
    hempty]

lemma parseDigits_fold {value : List Char} : parseDigits (fold value) = parseDigits value := by
  have hdigit : ∀ c : Char, c.toLower.isDigit = c.isDigit := toLower_congr (by decide)
  have hdigits : (fold value).all Char.isDigit = value.all Char.isDigit := by
    rw [fold, List.all_map, Function.comp_def]
    simp only [hdigit]
  by_cases hall : value.all Char.isDigit = true
  · have hsame : ∀ c ∈ value, c.toLower = c := by
      intro c hc
      have hle := toNat_of_isDigit (List.all_eq_true.1 hall c hc)
      rw [Char.toLower, dif_neg]
      exact fun hval => absurd (show 65 ≤ c.toNat from hval.1) (by omega)
    rw [fold, List.map_congr_left hsame, List.map_id']
  · rw [parseDigits, parseDigits, if_neg fun h => hall (hdigits.symm.trans h.2),
      if_neg fun h => hall h.2]

lemma isPort_fold {value : List Char} {n : ℕ} : IsPort (fold value) n ↔ IsPort value n := by
  rw [IsPort, IsPort, parseDigits_fold]

lemma mem_fold {d : Char} (hd : ∀ n < 26,
      decide ((Char.ofNat (65 + n)).toLower = d) = decide (Char.ofNat (65 + n) = d)) :
    d ∈ fold text ↔ d ∈ text := by
  rw [fold, List.mem_map]
  simp only [toLower_eq_iff hd, exists_eq_right]

lemma head_fold {d : Char} (hd : ∀ n < 26,
      decide ((Char.ofNat (65 + n)).toLower = d) = decide (Char.ofNat (65 + n) = d)) :
    (fold text).head? = some d ↔ text.head? = some d := by
  cases text with
  | nil => rfl
  | cons c text =>
    rw [fold, List.map_cons, List.head?_cons, List.head?_cons, Option.some_inj, Option.some_inj,
      toLower_eq_iff hd]

lemma count_fold {d : Char} (hd : ∀ n < 26,
      decide ((Char.ofNat (65 + n)).toLower = d) = decide (Char.ofNat (65 + n) = d)) :
    (fold text).count d = text.count d := by
  rw [List.count_eq_countP, List.count_eq_countP, fold, List.countP_map]
  refine List.countP_congr fun c _ => ?_
  rw [Function.comp_apply, beq_iff_eq, beq_iff_eq, toLower_eq_iff hd]

/-- The name of an entry, in small letters. -/
lemma names_fold (h : Names entry name expected) : Names (fold entry) (fold name) expected := by
  cases h with
  | plain hcolon hbracket =>
    exact .plain (by rwa [count_fold (by decide)]) (by rwa [ne_eq, head_fold (by decide)])
  | port hcolon hbracket hport =>
    rw [fold, List.map_append]
    exact .port (by rwa [← fold, mem_fold (by decide)]) (by rwa [← fold, ne_eq, head_fold (by decide)])
      (isPort_fold.2 hport)
  | bracket hclose =>
    rw [fold, List.map_cons, List.map_append]
    exact .bracket (by rwa [← fold, mem_fold (by decide)])
  | bracketPort hclose hport =>
    rw [fold, List.map_cons, List.map_append]
    exact .bracketPort (by rwa [← fold, mem_fold (by decide)]) (isPort_fold.2 hport)

/-- Every name of an entry in small letters is that of the entry. -/
lemma names_of_fold {small : List Char} (h : Names (fold entry) small expected) :
    ∃ name, fold name = small ∧ Names entry name expected := by
  generalize hentry : fold entry = folded at h
  cases h with
  | plain hcolon hbracket =>
    subst hentry
    rw [count_fold (by decide)] at hcolon
    rw [ne_eq, head_fold (by decide)] at hbracket
    exact ⟨entry, rfl, .plain hcolon hbracket⟩
  | port hcolon hbracket hport =>
    obtain ⟨name, rest, rfl, rfl, hrest⟩ := List.map_eq_append_iff.1 hentry
    obtain ⟨c, value, rfl, hc, rfl⟩ := List.map_eq_cons_iff.1 hrest
    obtain rfl := (toLower_eq_iff (by decide)).1 hc
    rw [← fold, mem_fold (by decide)] at hcolon
    rw [← fold, ne_eq, head_fold (by decide)] at hbracket
    exact ⟨name, rfl, .port hcolon hbracket (isPort_fold.1 hport)⟩
  | bracket hclose =>
    obtain ⟨o, rest, rfl, ho, hrest⟩ := List.map_eq_cons_iff.1 hentry
    obtain ⟨name, last, rfl, rfl, hlast⟩ := List.map_eq_append_iff.1 hrest
    obtain ⟨c, value, rfl, hc, hvalue⟩ := List.map_eq_cons_iff.1 hlast
    obtain rfl := (toLower_eq_iff (by decide)).1 ho
    obtain rfl := (toLower_eq_iff (by decide)).1 hc
    obtain rfl := List.map_eq_nil_iff.1 hvalue
    rw [← fold, mem_fold (by decide)] at hclose
    exact ⟨name, rfl, .bracket hclose⟩
  | bracketPort hclose hport =>
    obtain ⟨o, rest, rfl, ho, hrest⟩ := List.map_eq_cons_iff.1 hentry
    obtain ⟨name, last, rfl, rfl, hlast⟩ := List.map_eq_append_iff.1 hrest
    obtain ⟨c, behind, rfl, hc, hbehind⟩ := List.map_eq_cons_iff.1 hlast
    obtain ⟨d, value, rfl, hd, rfl⟩ := List.map_eq_cons_iff.1 hbehind
    obtain rfl := (toLower_eq_iff (by decide)).1 ho
    obtain rfl := (toLower_eq_iff (by decide)).1 hc
    obtain rfl := (toLower_eq_iff (by decide)).1 hd
    rw [← fold, mem_fold (by decide)] at hclose
    exact ⟨name, rfl, .bracketPort hclose (isPort_fold.1 hport)⟩

lemma under_fold : Under (fold host) (fold name) ↔ Under host name := by
  rw [Under, Under, trimDots_fold, fold_fold, fold_fold, ne_eq, fold, List.map_eq_nil_iff]

lemma entryMatches_fold :
    EntryMatches (fold host) port (fold entry) ↔ EntryMatches host port entry := by
  refine or_congr ?_ ⟨?_, ?_⟩
  · rw [fold, List.map_eq_singleton_iff]
    constructor
    · rintro ⟨c, rfl, hc⟩
      rw [(toLower_eq_iff (by decide)).1 hc]
    · rintro rfl
      exact ⟨'*', rfl, by decide⟩
  · rintro ⟨small, expected, hsmall, hport, hunder⟩
    obtain ⟨name, rfl, hname⟩ := names_of_fold hsmall
    exact ⟨name, expected, hname, hport, under_fold.1 hunder⟩
  · rintro ⟨name, expected, hname, hport, hunder⟩
    exact ⟨fold name, expected, names_fold hname, hport, under_fold.2 hunder⟩

lemma matches_small : Matches (fold host) port (fold list) ↔ Matches host port list := by
  have hdot : ∀ c : Char, decide (c.toLower = '.') = decide (c = '.') :=
    toLower_congr (f := fun c => decide (c = '.')) (by decide)
  rw [Matches, Matches, entries_fold, rdropWhile_fold hdot]
  constructor
  · rintro ⟨_, hfolded, hentry⟩
    obtain ⟨entry, hmem, rfl⟩ := List.mem_map.1 hfolded
    exact ⟨entry, hmem, entryMatches_fold.1 hentry⟩
  · rintro ⟨entry, hmem, hentry⟩
    exact ⟨fold entry, List.mem_map_of_mem hmem, entryMatches_fold.2 hentry⟩

/-- **The grammar does not look at the case** of the host or of the list. -/
theorem matches_fold (hhost : fold host = fold host') (hlist : fold list = fold list') :
    Matches host port list ↔ Matches host' port list' := by
  rw [← matches_small, hhost, hlist, matches_small]

end Case

section Order

variable {host list list' : List Char} {port : ℕ}

/-- The order of the entries does not matter to the grammar. -/
lemma matches_perm (h : (entries list).Perm (entries list')) :
    Matches host port list ↔ Matches host port list' := by
  simp only [Matches, h.mem_iff]

/-- The order of the entries does not matter to the code. -/
lemma noProxyMatches_perm (h : (entries list).Perm (entries list')) :
    noProxyMatches host port list = noProxyMatches host port list' := by
  rw [Bool.eq_iff_iff, noProxyMatches, noProxyMatches, List.any_eq_true, List.any_eq_true]
  simp only [h.mem_iff]

end Order

end NoProxy

end Rupi
