import Rupi.Lib.Rewrite
import Rupi.Core.Session

/-!
The redaction boundary: every durable line goes through a policy first.

Each pass of `RedactionPolicy.apply` is a left-to-right rewriting of the text:

- `literalPass`: a literal or environment secret, replaced wherever it occurs;
- `privateKeyPass`: private key blocks, line by line;
- `urlPass`: the credential part of `scheme://authority@host`;
- `authorizationPass`: the value after `Bearer` or `Basic`;
- `keyPrefixPass`: tokens with the public prefix of a provider key.

`RedactionPolicy.walkJson` carries the policy through a JSON tree.
-/

namespace Rupi

open Rewrite

/-- Which class of secret a replacement came from. -/
inductive SecretKind where
  | env | providerKey | authorization | urlCredentials | privateKey | secretField
  deriving DecidableEq, Repr

def SecretKind.asStr : SecretKind → String
  | .env => "env"
  | .providerKey => "key"
  | .authorization => "auth"
  | .urlCredentials => "url"
  | .privateKey => "pkey"
  | .secretField => "field"

/-- `[redacted:kind]`. -/
def marker (kind : SecretKind) : List Char := ("[redacted:" ++ kind.asStr ++ "]").toList

/-- The redaction policy, with the snapshot of secret-looking environment values
that `env_secrets` takes once per process. -/
structure RedactionPolicy where
  enabled : Bool
  minSecretLen : Nat
  literals : List String
  scanEnvironment : Bool
  envSecrets : List String
  deriving DecidableEq, Repr

/-- A policy that leaves every text alone. -/
def RedactionPolicy.disabled : RedactionPolicy := ⟨false, 8, [], false, []⟩

/-! ### Literal secrets -/

/-- `str::replace` of a non-empty secret: the leftmost occurrence is swapped and
the search goes on behind it. -/
def occurrenceScanner (secret mark : List Char) (hne : secret ≠ []) : Scanner Unit Char where
  start := ()
  hit _ text := if secret.isPrefixOf text then some ⟨0, some (secret.length, mark)⟩ else none
  follow _ _ := ()
  hit_length := by
    intro _ text h hhit
    by_cases hpre : secret.isPrefixOf text
    · obtain ⟨rest, rfl⟩ := List.isPrefixOf_iff_prefix.mp hpre
      have hpos : 0 < secret.length := List.length_pos_of_ne_nil hne
      simp only [hpre, if_true, Option.some.injEq] at hhit
      subst hhit
      simp [Hit.length, hpos]
    · simp [hpre] at hhit

/-- `str::replace` of the empty text: the mark goes in front of every symbol and
at the end. -/
def emptyPieces (mark : List Char) : List Char → List (Piece Char)
  | [] => [.swap [] mark]
  | c :: text => .swap [] mark :: .keep c :: emptyPieces mark text

lemma input_emptyPieces (mark text : List Char) : input (emptyPieces mark text) = text := by
  induction text with
  | nil => rfl
  | cons c text ih => simp [emptyPieces, ih]

/-- One candidate of the policy, replaced wherever it occurs. -/
def literalPass (secret mark : List Char) : Rewriting Char :=
  if hne : secret = [] then ⟨emptyPieces mark, input_emptyPieces mark⟩
  else (occurrenceScanner secret mark hne).rewriting

/-! ### Private key blocks -/

/-- `str::split_inclusive('\n')`. -/
def splitInclusive : List Char → List (List Char)
  | [] => []
  | c :: text =>
    if c = '\n' then [c] :: splitInclusive text
    else match splitInclusive text with
      | [] => [[c]]
      | line :: lines => (c :: line) :: lines

lemma flatten_splitInclusive (text : List Char) : (splitInclusive text).flatten = text := by
  induction text with
  | nil => rfl
  | cons c text ih =>
    by_cases hc : c = '\n'
    · simp [splitInclusive, hc, ih]
    · cases hlines : splitInclusive text with
      | nil => simp_all [splitInclusive]
      | cons line lines => simp_all [splitInclusive]

/-- `str::strip_suffix` for one character. -/
def stripSuffix (c : Char) (text : List Char) : Option (List Char) :=
  if text.getLast? = some c then some text.dropLast else none

/-- A line without its ending. -/
def withoutEnding (line : List Char) : List Char :=
  match stripSuffix '\n' line with
  | none => line
  | some line => (stripSuffix '\r' line).getD line

/-- `str::lines`. -/
def textLines (text : String) : List String :=
  (splitInclusive text.toList).map fun line => String.ofList (withoutEnding line)

/-- A line that opens a private key block. -/
def opensKeyBlock (line : List Char) : Bool :=
  "-----BEGIN".toList.isPrefixOf (trimChars line) &&
    containsText "PRIVATE KEY".toList (trimChars line)

/-- A line that closes a private key block. -/
def closesKeyBlock (line : List Char) : Bool := containsText "-----END".toList (trimChars line)

/-- The mark of a private key block: a line of its own. -/
def keyBlockMark : List Char := marker .privateKey ++ ['\n']

/-- Withhold every block from its opening line through its closing line; `block`
is the block being withheld. A block that never closes is withheld as well. -/
def privateKeyPieces : Option (List Char) → List (List Char) → List (Piece Char)
  | none, [] => []
  | some block, [] => [.swap block keyBlockMark]
  | none, line :: lines =>
    if opensKeyBlock line then privateKeyPieces (some line) lines
    else kept line ++ privateKeyPieces none lines
  | some block, line :: lines =>
    if closesKeyBlock line then
      .swap (block ++ line) keyBlockMark :: privateKeyPieces none lines
    else privateKeyPieces (some (block ++ line)) lines

lemma input_privateKeyPieces (block : Option (List Char)) (lines : List (List Char)) :
    input (privateKeyPieces block lines) = block.getD [] ++ lines.flatten := by
  induction lines generalizing block with
  | nil => cases block <;> simp [privateKeyPieces]
  | cons line lines ih =>
    cases block with
    | none =>
      by_cases hopen : opensKeyBlock line
      · simp [privateKeyPieces, hopen, ih]
      · simp [privateKeyPieces, hopen, ih]
    | some block =>
      by_cases hclose : closesKeyBlock line
      · simp [privateKeyPieces, hclose, ih]
      · simp [privateKeyPieces, hclose, ih]

/-- `redact_private_keys`. -/
def privateKeyPass : Rewriting Char where
  pieces text := privateKeyPieces none (splitInclusive text)
  input_pieces text := by simp [input_privateKeyPieces, flatten_splitInclusive]

/-! ### URL credentials -/

/-- What stands between a scheme and its authority. -/
def authorityMark : List Char := [':', '/', '/']

/-- The credential after `://`, when it runs to an `@` with no line break and no
space before it. Without an `@` the source stops looking; nothing behind that
point has an `@` either, so going on finds no more. -/
def urlHit (text : List Char) : Option (Hit Char) :=
  if authorityMark.isPrefixOf text then
    let after := text.drop 3
    let authority := after.takeWhile (· != '@')
    if authority.length = after.length then none
    else if authority.contains '\n' || authority.contains ' ' then none
    else some ⟨3, some (authority.length + 1, marker .urlCredentials ++ ['@'])⟩
  else none

lemma length_takeWhile_le (p : Char → Bool) (text : List Char) :
    (text.takeWhile p).length ≤ text.length :=
  (List.takeWhile_prefix p).length_le

/-- `redact_url_credentials`. -/
def urlScanner : Scanner Unit Char where
  start := ()
  hit _ := urlHit
  follow _ _ := ()
  hit_length := by
    intro _ text h hhit
    unfold urlHit at hhit
    split at hhit
    · rename_i hpre
      have hlead : 3 ≤ text.length := (List.isPrefixOf_iff_prefix.mp hpre).length_le
      have hle := length_takeWhile_le (· != '@') (text.drop 3)
      rw [List.length_drop] at hle
      simp only at hhit
      split at hhit
      · simp at hhit
      · rename_i hlen
        split at hhit
        · simp at hhit
        · rw [List.length_drop] at hlen
          obtain rfl := Option.some.inj hhit
          simp only [Hit.length, Option.map_some, Option.getD_some]
          omega
    · simp at hhit

/-! ### Authorization values -/

/-- Symbols of a token. -/
def isTokenChar (c : Char) : Bool :=
  c.isAlphanum || c == '-' || c == '_' || c == '+' || c == '/' || c == '.' || c == ':'

/-- `find_scheme` at one position: the length of the scheme that starts here. -/
def schemeLength (text : List Char) : Option Nat :=
  if (text.take 6).map Char.toLower = "bearer".toList then some 6
  else if (text.take 5).map Char.toLower = "basic".toList then some 5
  else none

/-- Symbols of an authorization value. -/
def isValueChar (c : Char) : Bool := !isWhitespace c && c != '"' && c != '\'' && c != ','

/-- The value after `Bearer` or `Basic`. A scheme with no separator is an
ordinary word, and a value shorter than four symbols stays; the source goes on
behind either as at the start of a text. -/
def authorizationHit (boundary : Bool) (text : List Char) : Option (Hit Char) :=
  if boundary then
    match schemeLength text with
    | none => none
    | some n =>
      match text.drop n with
      | [] => some ⟨n, none⟩
      | c :: rest =>
        if isWhitespace c || c == ':' || c == '=' then
          let value := rest.takeWhile isValueChar
          if value.length < 4 then some ⟨n + 1, none⟩
          else some ⟨n + 1, some (value.length, marker .authorization)⟩
        else some ⟨n, none⟩
  else none

lemma schemeLength_le {text : List Char} {n : Nat} (h : schemeLength text = some n) :
    0 < n ∧ n ≤ text.length := by
  unfold schemeLength at h
  split at h
  · rename_i hscheme
    have hlen := congrArg List.length hscheme
    obtain rfl := Option.some.inj h
    simp at hlen
    omega
  · split at h
    · rename_i hscheme
      have hlen := congrArg List.length hscheme
      obtain rfl := Option.some.inj h
      simp at hlen
      omega
    · simp at h

/-- `redact_authorization`. The state says whether a token may start here. -/
def authorizationScanner : Scanner Bool Char where
  start := true
  hit := authorizationHit
  follow _ c := !isTokenChar c
  hit_length := by
    intro boundary text h hhit
    unfold authorizationHit at hhit
    split at hhit
    · split at hhit
      · simp at hhit
      · rename_i n hscheme
        obtain ⟨hpos, hle⟩ := schemeLength_le hscheme
        split at hhit
        · obtain rfl := Option.some.inj hhit
          simpa [Hit.length] using ⟨hpos, hle⟩
        · rename_i c rest hdrop
          have hlen : text.length - n = rest.length + 1 := by
            simpa using congrArg List.length hdrop
          have hvalue := length_takeWhile_le isValueChar rest
          split at hhit
          · simp only at hhit
            split at hhit <;> obtain rfl := Option.some.inj hhit <;>
              simp only [Hit.length, Option.map_some, Option.map_none, Option.getD_some,
                Option.getD_none] <;> omega
          · obtain rfl := Option.some.inj hhit
            simpa [Hit.length] using ⟨hpos, hle⟩
    · simp at hhit

/-! ### Provider keys -/

/-- Provider key prefixes with the shortest tail that makes a match unambiguous. -/
def keyPrefixes : List (String × Nat) :=
  [("sk-ant-", 12), ("github_pat_", 12), ("ghp_", 12), ("gho_", 12), ("ghs_", 12),
    ("glpat-", 12), ("dckr_pat_", 12), ("ya29.", 8), ("AKIA", 8), ("AIza", 8), ("sk-", 12),
    ("xox", 10), ("npm_", 12), ("pypi-", 12), ("hf_", 12), ("xai-", 12), ("sgkey-", 12)]

/-- The first prefix in the table that a token matches. -/
def matchingPrefix (token : List Char) (minSecretLen : Nat) : Option String :=
  (keyPrefixes.find? fun entry =>
    entry.1.toList.isPrefixOf token &&
      decide (max entry.2 minSecretLen ≤ token.length - entry.1.length)).map (·.1)

/-- A whole token that carries a provider key. -/
def keyPrefixHit (minSecretLen : Nat) (boundary : Bool) (text : List Char) : Option (Hit Char) :=
  let token := text.takeWhile isTokenChar
  if boundary && !token.isEmpty then
    (matchingPrefix token minSecretLen).map fun p =>
      ⟨0, some (token.length, ("[redacted:key " ++ p ++ "]").toList)⟩
  else none

/-- `redact_key_prefixes`. The state says whether a token may start here. -/
def keyPrefixScanner (minSecretLen : Nat) : Scanner Bool Char where
  start := true
  hit := keyPrefixHit minSecretLen
  follow _ c := !isTokenChar c
  hit_length := by
    intro boundary text h hhit
    have hle := length_takeWhile_le isTokenChar text
    unfold keyPrefixHit at hhit
    simp only at hhit
    split at hhit
    · rename_i hstart
      have hpos : 0 < (text.takeWhile isTokenChar).length := by
        simp only [Bool.and_eq_true, Bool.not_eq_true', List.isEmpty_eq_false_iff] at hstart
        exact List.length_pos_of_ne_nil hstart.2
      obtain ⟨p, -, rfl⟩ := Option.map_eq_some_iff.mp hhit
      simp only [Hit.length, Option.map_some, Option.getD_some]
      omega
    · simp at hhit

/-! ### Every mark shows a bracket -/

lemma bracket_mem_marker (kind : SecretKind) : '[' ∈ marker kind := by
  simp [marker]

lemma literalPass_shows (secret : List Char) (kind : SecretKind) :
    (literalPass secret (marker kind)).Shows '[' := by
  unfold literalPass
  split
  · intro text span mark hmem
    have hempty : ∀ text, Piece.swap span mark ∈ emptyPieces (marker kind) text →
        mark = marker kind := by
      intro text
      induction text with
      | nil => intro h; exact (by simpa [emptyPieces] using h : _ ∧ _).2
      | cons c text ih =>
        intro h
        simp only [emptyPieces, List.mem_cons, Piece.swap.injEq, reduceCtorEq, false_or] at h
        rcases h with h | h
        · exact h.2
        · exact ih h
    rw [hempty text hmem]
    exact bracket_mem_marker kind
  · refine Scanner.rewriting_shows fun q text hit hhit swap hswap => ?_
    simp only [occurrenceScanner] at hhit
    split at hhit
    · obtain rfl := Option.some.inj hhit
      obtain rfl := Option.some.inj hswap
      exact bracket_mem_marker kind
    · cases hhit

lemma privateKeyPass_shows : privateKeyPass.Shows '[' := by
  have hpieces : ∀ lines block span mark,
      Piece.swap span mark ∈ privateKeyPieces block lines → mark = keyBlockMark := by
    intro lines
    induction lines with
    | nil =>
      intro block span mark hmem
      cases block with
      | none => simp [privateKeyPieces] at hmem
      | some block => exact (by simpa [privateKeyPieces] using hmem : _ ∧ _).2
    | cons line lines ih =>
      intro block span mark hmem
      cases block with
      | none =>
        simp only [privateKeyPieces] at hmem
        split at hmem
        · exact ih _ span mark hmem
        · refine ih none span mark ?_
          simpa [kept] using hmem
      | some block =>
        simp only [privateKeyPieces] at hmem
        split at hmem
        · simp only [List.mem_cons, Piece.swap.injEq] at hmem
          rcases hmem with h | h
          · exact h.2
          · exact ih _ span mark h
        · exact ih _ span mark hmem
  intro text span mark hmem
  rw [hpieces _ _ span mark hmem]
  exact List.mem_append_left _ (bracket_mem_marker _)

lemma urlScanner_shows : urlScanner.rewriting.Shows '[' := by
  refine Scanner.rewriting_shows fun q text hit hhit swap hswap => ?_
  simp only [urlScanner, urlHit] at hhit
  split_ifs at hhit
  obtain rfl := Option.some.inj hhit
  obtain rfl := Option.some.inj hswap
  exact List.mem_append_left _ (bracket_mem_marker _)

lemma authorizationScanner_shows : authorizationScanner.rewriting.Shows '[' := by
  refine Scanner.rewriting_shows fun q text hit hhit swap hswap => ?_
  simp only [authorizationScanner, authorizationHit] at hhit
  split at hhit
  · split at hhit
    · cases hhit
    · split at hhit
      · obtain rfl := Option.some.inj hhit
        cases hswap
      · split_ifs at hhit <;> obtain rfl := Option.some.inj hhit
        · cases hswap
        · obtain rfl := Option.some.inj hswap
          exact bracket_mem_marker _
        · cases hswap
  · cases hhit

lemma keyPrefixScanner_shows (minSecretLen : Nat) :
    (keyPrefixScanner minSecretLen).rewriting.Shows '[' := by
  refine Scanner.rewriting_shows fun q text hit hhit swap hswap => ?_
  simp only [keyPrefixScanner, keyPrefixHit] at hhit
  split at hhit
  · obtain ⟨p, -, rfl⟩ := Option.map_eq_some_iff.mp hhit
    obtain rfl := Option.some.inj hswap
    simp
  · cases hhit

/-! ### The policy on a text -/

/-- Result of one redaction pass over a text. -/
structure Redacted where
  text : String
  replacements : Nat
  deriving DecidableEq, Repr

namespace RedactionPolicy

/-- Literal candidates, longest first, so that a short secret inside a longer one
cannot leave a fragment of the longer one. -/
def candidates (policy : RedactionPolicy) : List (String × SecretKind) :=
  let literals := policy.literals.filter fun literal => policy.minSecretLen ≤ literal.length
  let env :=
    if policy.scanEnvironment then
      policy.envSecrets.filter fun value => policy.minSecretLen ≤ value.length
    else []
  (literals.map (·, SecretKind.secretField) ++ env.map (·, SecretKind.env)).insertionSort
    fun a b => b.1.length ≤ a.1.length

/-- The passes of a policy, in the order they run. -/
def passes (policy : RedactionPolicy) : List (Rewriting Char) :=
  policy.candidates.map (fun candidate => literalPass candidate.1.toList (marker candidate.2)) ++
    [privateKeyPass, urlScanner.rewriting, authorizationScanner.rewriting,
      (keyPrefixScanner policy.minSecretLen).rewriting]

/-- Redact one string. -/
def apply (policy : RedactionPolicy) (input : String) : Redacted :=
  if policy.enabled then
    ⟨String.ofList (applyAll policy.passes input.toList), swapsAll policy.passes input.toList⟩
  else ⟨input, 0⟩

/-- The text a policy leaves. -/
def text (policy : RedactionPolicy) (input : String) : String := (policy.apply input).text

@[simp] lemma text_of_not_enabled {policy : RedactionPolicy} (h : policy.enabled = false)
    (input : String) : policy.text input = input := by
  simp [text, apply, h]

lemma text_of_enabled {policy : RedactionPolicy} (h : policy.enabled = true) (input : String) :
    policy.text input = String.ofList (applyAll policy.passes input.toList) := by
  simp [text, apply, h]

lemma passes_show (policy : RedactionPolicy) : ∀ r ∈ policy.passes, r.Shows '[' := by
  intro r hr
  simp only [passes, List.mem_append, List.mem_map, List.mem_cons, List.not_mem_nil,
    or_false] at hr
  rcases hr with ⟨candidate, -, rfl⟩ | rfl | rfl | rfl | rfl
  · exact literalPass_shows _ _
  · exact privateKeyPass_shows
  · exact urlScanner_shows
  · exact authorizationScanner_shows
  · exact keyPrefixScanner_shows _

/-- A policy leaves a text alone or leaves a bracket in it. -/
theorem text_eq_or_bracket (policy : RedactionPolicy) (input : String) :
    policy.text input = input ∨ '[' ∈ (policy.text input).toList := by
  cases henabled : policy.enabled with
  | false => exact .inl (text_of_not_enabled henabled input)
  | true =>
    rw [text_of_enabled henabled, String.toList_ofList]
    rcases applyAll_eq_or_mem policy.passes_show input.toList with h | h
    · exact .inl (by rw [h, String.ofList_toList])
    · exact .inr h

/-- A redacted text without a bracket is the text. -/
lemma text_eq_of_no_bracket {policy : RedactionPolicy} {input output : String}
    (h : policy.text input = output) (hout : '[' ∉ output.toList) : input = output := by
  rcases policy.text_eq_or_bracket input with heq | hmem
  · exact heq.symm.trans h
  · rw [h] at hmem
    exact absurd hmem hout

end RedactionPolicy

/-! ### The policy on a JSON tree -/

/-- JSON keys whose values are credentials rather than prose. -/
def secretFields : List String :=
  ["api_key", "apikey", "api_secret", "authorization", "access_token", "refresh_token",
    "id_token", "client_secret", "password", "secret", "token", "x-api-key"]

def isSecretField (key : String) : Bool :=
  let lowered := key.toList.map Char.toLower
  (secretFields.map String.toList).contains lowered ||
    "_api_key".toList.isSuffixOf lowered || "_token".toList.isSuffixOf lowered ||
    "_secret".toList.isSuffixOf lowered

/-- What stands in for a credential field; a missing value stays missing. -/
def secretFieldValue (value : Value) : Value :=
  if value = .null then .null else .string (String.ofList (marker .secretField))

namespace RedactionPolicy

mutual

/-- `walk_json`: the tree with every string redacted and every credential field
replaced wholesale. -/
def walkJson (policy : RedactionPolicy) : Value → Value
  | .string text => .string (policy.text text)
  | .array items => .array (walkItems policy items)
  | .object fields => .object (walkFields policy fields)
  | value => value

def walkItems (policy : RedactionPolicy) : List Value → List Value
  | [] => []
  | value :: items => walkJson policy value :: walkItems policy items

def walkFields (policy : RedactionPolicy) : List (String × Value) → List (String × Value)
  | [] => []
  | (key, value) :: fields =>
    (key, if isSecretField key then secretFieldValue value else walkJson policy value) ::
      walkFields policy fields

end

mutual

/-- How many replacements `walk_json` makes. -/
def countJson (policy : RedactionPolicy) : Value → Nat
  | .string text => (policy.apply text).replacements
  | .array items => countItems policy items
  | .object fields => countFields policy fields
  | _ => 0

def countItems (policy : RedactionPolicy) : List Value → Nat
  | [] => 0
  | value :: items => countJson policy value + countItems policy items

def countFields (policy : RedactionPolicy) : List (String × Value) → Nat
  | [] => 0
  | (key, value) :: fields =>
    (if isSecretField key then (if value = .null then 0 else 1) else countJson policy value) +
      countFields policy fields

end

/-- `apply_json`: the redacted tree and the number of replacements. -/
def applyJson (policy : RedactionPolicy) (value : Value) : Value × Nat :=
  if policy.enabled then (policy.walkJson value, policy.countJson value) else (value, 0)

/-- The walk keeps the fields of an object; one that is no credential is walked
in its place. -/
lemma get_walkJson (policy : RedactionPolicy) (value : Value) {key : String}
    (hkey : isSecretField key = false) :
    (policy.walkJson value).get key = (value.get key).map policy.walkJson := by
  cases value with
  | object fields =>
    simp only [walkJson, Value.get]
    induction fields with
    | nil => rfl
    | cons field fields ih =>
      obtain ⟨k, v⟩ := field
      by_cases hk : k = key
      · simp [walkFields, hk, hkey]
      · simpa [walkFields, hk] using ih
  | _ => simp [walkJson, Value.get]

/-- What `apply_json` leaves of a tree. -/
def sanitize (policy : RedactionPolicy) (value : Value) : Value := (policy.applyJson value).1

@[simp] lemma sanitize_string (policy : RedactionPolicy) (text : String) :
    policy.sanitize (.string text) = .string (policy.text text) := by
  cases henabled : policy.enabled <;> simp [sanitize, applyJson, henabled, walkJson]

@[simp] lemma sanitize_int (policy : RedactionPolicy) (n : Int) :
    policy.sanitize (.int n) = .int n := by
  cases henabled : policy.enabled <;> simp [sanitize, applyJson, henabled, walkJson]

@[simp] lemma sanitize_bool (policy : RedactionPolicy) (b : Bool) :
    policy.sanitize (.bool b) = .bool b := by
  cases henabled : policy.enabled <;> simp [sanitize, applyJson, henabled, walkJson]

lemma walkItems_eq_map (policy : RedactionPolicy) (items : List Value) :
    policy.walkItems items = items.map policy.walkJson := by
  induction items with
  | nil => rfl
  | cons value items ih => simp [walkItems, ih]

@[simp] lemma sanitize_array (policy : RedactionPolicy) (items : List Value) :
    policy.sanitize (.array items) = .array (items.map policy.sanitize) := by
  cases henabled : policy.enabled with
  | false =>
    have hid : policy.sanitize = id := by
      funext value
      simp [sanitize, applyJson, henabled]
    simp [hid]
  | true =>
    have hwalk : policy.sanitize = policy.walkJson := by
      funext value
      simp [sanitize, applyJson, henabled]
    rw [hwalk, walkJson, walkItems_eq_map]

lemma get_sanitize (policy : RedactionPolicy) (value : Value) {key : String}
    (hkey : isSecretField key = false) :
    (policy.sanitize value).get key = (value.get key).map policy.sanitize := by
  cases henabled : policy.enabled with
  | false =>
    have hid : policy.sanitize = id := by
      funext value
      simp [sanitize, applyJson, henabled]
    simp [hid]
  | true =>
    have hwalk : policy.sanitize = policy.walkJson := by
      funext value
      simp [sanitize, applyJson, henabled]
    rw [hwalk, policy.get_walkJson value hkey]

end RedactionPolicy

end Rupi
