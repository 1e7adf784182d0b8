import Rupi.Core.Text

/-!
URLs in the configuration, and how they are written without their secrets.

- `redactUrl`: the URL that is printed; `redactUrl_idem`: printing it again changes nothing.
- `Url.parse`: the parts of a URL by the generic syntax; `Url.render_parse`, `Url.parse_render`.
- `redactUrl_eq_of_sliced`: what the secret parts say is not printed, where they are cut off.
- `redactUrl_const_iff`: the URLs that are printed alike whatever their secret parts say.
-/

namespace Rupi

/-! ### The printed URL -/

/-- `str::split_once` with a text to split at. -/
def splitText (needle : List Char) : List Char → Option (List Char × List Char)
  | [] => none
  | c :: text =>
    if needle <+: c :: text then some ([], (c :: text).drop needle.length)
    else (splitText needle text).map fun parts => (c :: parts.1, parts.2)

/-- What ends the authority. -/
def endsAuthority (c : Char) : Bool := c == '/' || c == '?' || c == '#'

def authorityStart : List Char := [':', '/', '/']

def redactedMark : List Char := "[redacted]".toList

/-- `safe` in `redact_url`: the URL without the userinfo of its authority. -/
def safeUrl (url : List Char) : List Char :=
  match splitText authorityStart url with
  | some (scheme, authorityAndPath) =>
    match rsplitOnce '@' (authorityAndPath.takeWhile fun c => !endsAuthority c) with
    | some (_, host) =>
      scheme ++ authorityStart ++ redactedMark ++ '@' :: host ++
        authorityAndPath.dropWhile fun c => !endsAuthority c
    | none => url
  | none => url

/-- What is behind the first `?`, or else behind the first `#`, is cut off. -/
def cutSecrets (safe : List Char) : List Char :=
  match splitOnce '?' safe with
  | some (base, _) => base ++ '?' :: redactedMark
  | none =>
    match splitOnce '#' safe with
    | some (base, _) => base ++ '#' :: redactedMark
    | none => safe

/-- `redact_url`. -/
def redactUrl (url : List Char) : List Char := cutSecrets (safeUrl url)

example : redactUrl "http://h/#secret?x".toList = "http://h/#secret?[redacted]".toList := by decide

/-! ### Splitting at a text -/

section Split

variable {needle text before after : List Char} {c : Char}

lemma splitText_eq_some (h : splitText needle text = some (before, after)) :
    text = before ++ needle ++ after := by
  induction text generalizing before with
  | nil => simp [splitText] at h
  | cons d text ih =>
    rw [splitText] at h
    split_ifs at h with hfront
    · obtain ⟨rfl, rfl⟩ : [] = before ∧ (d :: text).drop needle.length = after := by
        simpa using h
      obtain ⟨rest, hrest⟩ := hfront
      rw [← hrest]
      simp
    · obtain ⟨⟨a, b⟩, hsplit, hparts⟩ := Option.map_eq_some_iff.1 h
      obtain ⟨rfl, rfl⟩ : d :: a = before ∧ b = after := by simpa using hparts
      rw [ih hsplit]
      rfl

/-- What is found at a place is found there whatever follows. -/
lemma splitText_replace (hne : needle ≠ [])
    (h : splitText needle (before ++ needle ++ after) = some (before, after))
    (after' : List Char) :
    splitText needle (before ++ needle ++ after') = some (before, after') := by
  induction before with
  | nil =>
    obtain ⟨d, rest, rfl⟩ := List.exists_cons_of_ne_nil hne
    simp [splitText]
  | cons d before ih =>
    rw [List.cons_append, List.cons_append, splitText] at h ⊢
    have hfront : ∀ a, (needle <+: d :: (before ++ needle ++ a)) ↔
        needle <+: d :: (before ++ needle) := fun a =>
      ⟨fun hlong => List.prefix_of_prefix_length_le hlong
          (List.prefix_append (d :: (before ++ needle)) a) (by simp; omega),
        fun hshort => hshort.trans (List.prefix_append (d :: (before ++ needle)) a)⟩
    simp only [hfront] at h ⊢
    split_ifs at h ⊢ with hfound
    · simp at h
    · obtain ⟨⟨a, b⟩, hsplit, hparts⟩ := Option.map_eq_some_iff.1 h
      obtain ⟨rfl, rfl⟩ : a = before ∧ b = after := by simpa using hparts
      rw [ih hsplit]
      rfl

/-- What begins with a symbol that is not in front is found behind it. -/
lemma splitText_of_notMem (h : c ∉ before) :
    splitText (c :: needle) (before ++ (c :: needle) ++ after) = some (before, after) := by
  induction before with
  | nil => simp [splitText]
  | cons d before ih =>
    obtain ⟨hne, hrest⟩ : c ≠ d ∧ c ∉ before := by simpa using h
    rw [List.cons_append, List.cons_append, splitText, if_neg (by simp [hne]), ih hrest]
    rfl

lemma prefix_append_cons_iff (h : c ∉ needle) :
    (needle <+: before ++ c :: after) ↔ needle <+: before := by
  refine ⟨fun hfront => ?_, fun hfront => hfront.trans (List.prefix_append _ _)⟩
  rcases List.prefix_or_prefix_of_prefix hfront (List.prefix_append before (c :: after)) with
    hshort | ⟨rest, rfl⟩
  · exact hshort
  · obtain ⟨tail, htail⟩ := hfront
    rw [List.append_assoc, List.append_cancel_left_eq] at htail
    cases rest with
    | nil => simp
    | cons d rest =>
      obtain ⟨rfl, -⟩ : d = c ∧ _ := by simpa using htail
      exact absurd (by simp) h

/-- A symbol that is not in what is looked for keeps what is before it apart from what is behind
it. -/
lemma splitText_append_cons (needle before after : List Char) (hne : needle ≠ []) (h : c ∉ needle) :
    splitText needle (before ++ c :: after) =
      match splitText needle before with
      | some (a, b) => some (a, b ++ c :: after)
      | none => (splitText needle after).map fun parts => (before ++ c :: parts.1, parts.2) := by
  induction before with
  | nil =>
    have hfront : ¬ needle <+: c :: after := fun hfront =>
      hne (List.prefix_nil.1 ((@prefix_append_cons_iff needle [] after c h).1 hfront))
    simp only [List.nil_append, splitText, if_neg hfront]
  | cons d before ih =>
    have hiff := @prefix_append_cons_iff needle (d :: before) after c h
    rw [List.cons_append] at hiff ⊢
    simp only [splitText, hiff]
    split_ifs with hfront
    · dsimp only
      rw [← List.cons_append, List.drop_append_of_le_length hfront.length_le]
    · rw [ih]
      cases splitText needle before with
      | none =>
        rw [Option.map_map]
        rfl
      | some parts => rfl

end Split

/-! ### Printing twice -/

section Safe

variable {url front tail : List Char} {c : Char}

lemma takeWhile_authority_append (hauthority : ∀ x ∈ front, endsAuthority x = false)
    (htail : ∀ x ∈ tail.head?, endsAuthority x = true) :
    ((front ++ tail).takeWhile fun x => !endsAuthority x) = front ∧
      ((front ++ tail).dropWhile fun x => !endsAuthority x) = tail := by
  have hall : ∀ x ∈ front, (!endsAuthority x) = true := fun x hx => by rw [hauthority x hx]; rfl
  rw [List.takeWhile_append_of_pos hall, List.dropWhile_append_of_pos hall]
  cases tail with
  | nil => simp
  | cons x tail =>
    have hx : endsAuthority x = true := htail x rfl
    simp [hx]

lemma head?_dropWhile_authority (text : List Char) :
    ∀ x ∈ (text.dropWhile fun x => !endsAuthority x).head?, endsAuthority x = true := by
  intro x hx
  have hnot := List.head?_dropWhile_not (fun x => !endsAuthority x) text
  rw [hx] at hnot
  simpa using hnot

lemma endsAuthority_of_mem_takeWhile {text : List Char} {x : Char}
    (h : x ∈ text.takeWhile fun x => !endsAuthority x) : endsAuthority x = false := by
  simpa using List.mem_takeWhile_imp h

lemma endsAuthority_of_mem_mark : ∀ x ∈ redactedMark, endsAuthority x = false := by decide

/-- **A URL without userinfo stays as it is.** -/
lemma safeUrl_idem (url : List Char) : safeUrl (safeUrl url) = safeUrl url := by
  have hurl : safeUrl url = safeUrl url := rfl
  conv_rhs at hurl => rw [safeUrl]
  cases hsplit : splitText authorityStart url with
  | none =>
    rw [hsplit] at hurl
    rw [hurl, hurl]
  | some parts =>
    obtain ⟨scheme, rest⟩ := parts
    rw [hsplit] at hurl
    cases hat : rsplitOnce '@' (rest.takeWhile fun c => !endsAuthority c) with
    | none =>
      simp only [hat] at hurl
      rw [hurl, hurl]
    | some at_ =>
      obtain ⟨userinfo, host⟩ := at_
      simp only [hat] at hurl
      obtain ⟨hauthority, hhost⟩ := rsplitOnce_eq_some hat
      have hsafe : ∀ x ∈ redactedMark ++ '@' :: host, endsAuthority x = false := by
        intro x hx
        rcases List.mem_append.1 hx with hmark | hmem
        · exact endsAuthority_of_mem_mark x hmark
        · rcases List.mem_cons.1 hmem with rfl | hmem
          · rfl
          · exact endsAuthority_of_mem_takeWhile (by rw [hauthority]; simp [hmem])
      obtain ⟨htake, hdrop⟩ := takeWhile_authority_append hsafe (head?_dropWhile_authority rest)
      have hfound : splitText authorityStart (scheme ++ authorityStart ++
          ((redactedMark ++ '@' :: host) ++ rest.dropWhile fun c => !endsAuthority c)) =
          some (scheme, (redactedMark ++ '@' :: host) ++
            rest.dropWhile fun c => !endsAuthority c) := by
        rw [splitText_eq_some hsplit] at hsplit
        exact splitText_replace (by decide) hsplit _
      rw [hurl]
      have hshape : scheme ++ authorityStart ++ redactedMark ++ '@' :: host ++
          (rest.dropWhile fun c => !endsAuthority c) =
          scheme ++ authorityStart ++ ((redactedMark ++ '@' :: host) ++
            rest.dropWhile fun c => !endsAuthority c) := by simp
      rw [hshape, safeUrl, hfound]
      simp only [htake, hdrop, rsplitOnce_append hhost]
      simp

/-- Behind a symbol that ends an authority nothing changes what is before it. -/
lemma safeUrl_append_cons (front tail : List Char) (hends : endsAuthority c = true) (hc : c ∉ authorityStart) :
    ∃ tail', safeUrl (front ++ c :: tail) = safeUrl front ++ c :: tail' ∧
      (tail' = tail ∨ tail' = safeUrl tail) := by
  have hsplit := splitText_append_cons authorityStart front tail (by decide) hc
  cases hfront : splitText authorityStart front with
  | none =>
    rw [hfront] at hsplit
    have hsame : safeUrl front = front := by rw [safeUrl, hfront]
    cases htail : splitText authorityStart tail with
    | none =>
      rw [htail] at hsplit
      exact ⟨tail, by rw [hsame, safeUrl, hsplit]; rfl, .inl rfl⟩
    | some parts =>
      rw [htail] at hsplit
      refine ⟨safeUrl tail, ?_, .inr rfl⟩
      rw [hsame, safeUrl, hsplit, safeUrl, htail]
      dsimp only [Option.map_some]
      cases rsplitOnce '@' (parts.2.takeWhile fun c => !endsAuthority c) with
      | none => rfl
      | some at_ => simp
  | some parts =>
    obtain ⟨scheme, rest⟩ := parts
    rw [hfront] at hsplit
    refine ⟨tail, ?_, .inl rfl⟩
    have htail : ∀ x ∈ ((rest.dropWhile fun c => !endsAuthority c) ++ c :: tail).head?,
        endsAuthority x = true := by
      intro x hx
      rw [List.head?_append] at hx
      cases hhead : (rest.dropWhile fun c => !endsAuthority c).head? with
      | none =>
        rw [hhead] at hx
        obtain rfl : c = x := by simpa using hx
        exact hends
      | some y =>
        rw [hhead] at hx
        obtain rfl : y = x := by simpa using hx
        exact head?_dropWhile_authority rest y hhead
    obtain ⟨htake, hdrop⟩ := takeWhile_authority_append
      (fun x hx => @endsAuthority_of_mem_takeWhile rest x hx) htail
    rw [← List.append_assoc, List.takeWhile_append_dropWhile] at htake hdrop
    rw [safeUrl, hsplit, safeUrl, hfront]
    simp only [htake, hdrop]
    cases rsplitOnce '@' (rest.takeWhile fun c => !endsAuthority c) with
    | none => rfl
    | some at_ => simp

/-- Nothing is brought in that was not there, but for the mark. -/
lemma mem_of_mem_safeUrl {x : Char} (hx : x ∈ safeUrl url)
    (hmark : x ∉ redactedMark ++ authorityStart ++ ['@']) : x ∈ url := by
  rw [safeUrl] at hx
  cases hsplit : splitText authorityStart url with
  | none =>
    rw [hsplit] at hx
    exact hx
  | some parts =>
    obtain ⟨scheme, rest⟩ := parts
    rw [hsplit] at hx
    cases hat : rsplitOnce '@' (rest.takeWhile fun c => !endsAuthority c) with
    | none =>
      simp only [hat] at hx
      exact hx
    | some at_ =>
      obtain ⟨userinfo, host⟩ := at_
      simp only [hat] at hx
      have hrest : rest = (userinfo ++ '@' :: host) ++
          rest.dropWhile fun c => !endsAuthority c := by
        rw [← (rsplitOnce_eq_some hat).1, List.takeWhile_append_dropWhile]
      rw [splitText_eq_some hsplit, hrest]
      simp only [List.mem_append, List.mem_cons, not_or, List.not_mem_nil, or_false] at hx hmark ⊢
      tauto

/-! ### Where the secrets are cut off -/

lemma safeUrl_mark : safeUrl redactedMark = redactedMark := by decide

/-- A URL that is safe up to a symbol is safe with the mark behind it. -/
lemma safeUrl_append_mark (hends : endsAuthority c = true) (hc : c ∉ authorityStart)
    (hfront : c ∉ front) (hmark : c ∉ redactedMark ++ authorityStart ++ ['@'])
    (h : safeUrl (front ++ c :: tail) = front ++ c :: tail) :
    safeUrl (front ++ c :: redactedMark) = front ++ c :: redactedMark := by
  obtain ⟨tail', hsafe, -⟩ := safeUrl_append_cons front tail hends hc
  have hboth : some (safeUrl front, tail') = some (front, tail) := by
    have hnot : c ∉ safeUrl front := fun hmem => hfront (mem_of_mem_safeUrl hmem hmark)
    rw [← splitOnce_append hnot, ← hsafe, h, splitOnce_append hfront]
  obtain ⟨heq, -⟩ : safeUrl front = front ∧ tail' = tail := by simpa using hboth
  obtain ⟨mark, hmarked, rfl | rfl⟩ :=
    safeUrl_append_cons front redactedMark hends hc
  · rw [hmarked, heq]
  · rw [hmarked, heq, safeUrl_mark]

/-- **Printing a URL twice prints it once.** -/
lemma redactUrl_idem (url : List Char) : redactUrl (redactUrl url) = redactUrl url := by
  have hsafe : safeUrl (safeUrl url) = safeUrl url := safeUrl_idem url
  rw [show redactUrl url = cutSecrets (safeUrl url) from rfl]
  generalize safeUrl url = safe at hsafe
  cases hquery : splitOnce '?' safe with
  | some parts =>
    obtain ⟨base, rest⟩ := parts
    obtain ⟨rfl, hbase⟩ := splitOnce_eq_some hquery
    have hcut : cutSecrets (base ++ '?' :: redactedMark) = base ++ '?' :: redactedMark := by
      rw [cutSecrets, splitOnce_append hbase]
    rw [cutSecrets, hquery]
    dsimp only
    rw [redactUrl, safeUrl_append_mark (by decide) (by decide) hbase (by decide) hsafe, hcut]
  | none =>
    cases hfragment : splitOnce '#' safe with
    | none =>
      have hcut : cutSecrets safe = safe := by
        rw [cutSecrets, hquery]
        dsimp only
        rw [hfragment]
      rw [hcut, redactUrl, hsafe, hcut]
    | some parts =>
      obtain ⟨base, rest⟩ := parts
      obtain ⟨rfl, hbase⟩ := splitOnce_eq_some hfragment
      have hnot : '?' ∉ base ++ '#' :: redactedMark := by
        have hmark : '?' ∉ redactedMark := by decide
        rw [splitOnce_eq_none] at hquery
        simp only [List.mem_append, List.mem_cons, not_or] at hquery ⊢
        exact ⟨hquery.1, by decide, hmark⟩
      have hcut : cutSecrets (base ++ '#' :: redactedMark) = base ++ '#' :: redactedMark := by
        rw [cutSecrets, splitOnce_eq_none.2 hnot]
        dsimp only
        rw [splitOnce_append hbase]
      rw [cutSecrets, hquery]
      dsimp only
      rw [hfragment]
      dsimp only
      rw [redactUrl, safeUrl_append_mark (by decide) (by decide) hbase (by decide) hsafe, hcut]

/-- What ends the part of a URL that is printed. -/
def secretsMark : List Char → List Char
  | [] => []
  | c :: _ => c :: redactedMark

/-- The front of a URL is printed, and of what follows only how it begins, where a fragment has no
`?` in it. -/
lemma redactUrl_append (hquery : '?' ∉ front) (hfragment : '#' ∉ front)
    (htail : tail = [] ∨ (∃ rest, tail = '?' :: rest) ∨ ∃ rest, tail = '#' :: rest ∧ '?' ∉ rest) :
    redactUrl (front ++ tail) = safeUrl front ++ secretsMark tail := by
  have hsafeQuery : '?' ∉ safeUrl front := fun h => hquery (mem_of_mem_safeUrl h (by decide))
  have hsafeFragment : '#' ∉ safeUrl front := fun h =>
    hfragment (mem_of_mem_safeUrl h (by decide))
  rcases htail with rfl | ⟨rest, rfl⟩ | ⟨rest, rfl, hrest⟩
  · rw [List.append_nil, redactUrl, cutSecrets, splitOnce_eq_none.2 hsafeQuery]
    dsimp only
    rw [splitOnce_eq_none.2 hsafeFragment]
    simp [secretsMark]
  · obtain ⟨tail', hsafe, -⟩ := @safeUrl_append_cons '?' front rest
      (by decide) (by decide)
    rw [redactUrl, hsafe, cutSecrets, splitOnce_append hsafeQuery]
    rfl
  · obtain ⟨tail', hsafe, htail'⟩ := @safeUrl_append_cons '#' front rest
      (by decide) (by decide)
    have hnot : '?' ∉ tail' := by
      rcases htail' with rfl | rfl
      · exact hrest
      · exact fun h => hrest (mem_of_mem_safeUrl h (by decide))
    rw [redactUrl, hsafe, cutSecrets, splitOnce_eq_none.2 (by simp [hsafeQuery, hnot])]
    dsimp only
    rw [splitOnce_append hsafeFragment]
    rfl

/-- A `?` in a fragment lets what is before it through. -/
lemma redactUrl_fragment_query (hquery : '?' ∉ front) :
    redactUrl (front ++ "#?".toList) = safeUrl front ++ '#' :: '?' :: redactedMark := by
  have hsafeQuery : '?' ∉ safeUrl front := fun h => hquery (mem_of_mem_safeUrl h (by decide))
  obtain ⟨tail', hsafe, htail'⟩ := @safeUrl_append_cons '#' front ['?']
    (by decide) (by decide)
  have hsame : tail' = ['?'] := by
    rcases htail' with rfl | rfl
    · rfl
    · decide
  have hnot : '?' ∉ safeUrl front ++ ['#'] := by simp [hsafeQuery]
  rw [redactUrl, show "#?".toList = ['#', '?'] from rfl, hsafe, hsame, cutSecrets,
    show safeUrl front ++ ['#', '?'] = (safeUrl front ++ ['#']) ++ '?' :: [] by simp,
    splitOnce_append hnot]
  simp

/-- What is before the first `?` and `#` stays. -/
lemma prefix_cutSecrets {safe : List Char} (hfront : front <+: safe) (hquery : '?' ∉ front)
    (hfragment : '#' ∉ front) : front <+: cutSecrets safe := by
  rw [cutSecrets]
  cases hsplit : splitOnce '?' safe with
  | some parts =>
    obtain ⟨rfl, -⟩ := splitOnce_eq_some hsplit
    exact ((prefix_append_cons_iff hquery).1 hfront).trans (List.prefix_append _ _)
  | none =>
    dsimp only
    cases hsplit' : splitOnce '#' safe with
    | some parts =>
      obtain ⟨rfl, -⟩ := splitOnce_eq_some hsplit'
      exact ((prefix_append_cons_iff hfragment).1 hfront).trans (List.prefix_append _ _)
    | none => exact hfront

lemma splitText_slashes {userinfo : List Char}
    (huserinfo : ∀ x ∈ userinfo, endsAuthority x = false) :
    splitText authorityStart ('/' :: '/' :: userinfo) = none := by
  by_contra hsome
  obtain ⟨⟨a, b⟩, hsplit⟩ := Option.ne_none_iff_exists'.1 hsome
  have htext := splitText_eq_some hsplit
  rcases a with - | ⟨x, - | ⟨y, a⟩⟩
  · simp [authorityStart] at htext
  · simp [authorityStart] at htext
  · obtain ⟨rfl, rfl, rfl⟩ : '/' = x ∧ '/' = y ∧ userinfo = a ++ authorityStart ++ b := by
      simpa using htext
    have hslash := huserinfo '/' (by simp [authorityStart])
    exact absurd hslash (by decide)

/-- Without a scheme the userinfo is let through. -/
lemma prefix_redactUrl_of_no_scheme {userinfo rest : List Char}
    (huserinfo : ∀ x ∈ userinfo, endsAuthority x = false) :
    ('/' :: '/' :: userinfo ++ ['@']) <+: redactUrl ('/' :: '/' :: userinfo ++ '@' :: rest) := by
  have hquery : '?' ∉ '/' :: '/' :: userinfo ++ ['@'] := by
    have hnot : '?' ∉ userinfo := fun h => absurd (huserinfo _ h) (by decide)
    simpa using hnot
  have hfragment : '#' ∉ '/' :: '/' :: userinfo ++ ['@'] := by
    have hnot : '#' ∉ userinfo := fun h => absurd (huserinfo _ h) (by decide)
    simpa using hnot
  refine prefix_cutSecrets ?_ hquery hfragment
  have hall : ('/' :: '/' :: userinfo ++ ['@']) <+: '/' :: '/' :: userinfo ++ '@' :: rest := by
    simp
  have hsplit := @splitText_append_cons '@' authorityStart ('/' :: '/' :: userinfo) rest (by decide)
    (by decide)
  rw [splitText_slashes huserinfo] at hsplit
  rw [safeUrl, hsplit]
  cases splitText authorityStart rest with
  | none => exact hall
  | some parts =>
    dsimp only [Option.map_some]
    cases rsplitOnce '@' (parts.2.takeWhile fun c => !endsAuthority c) with
    | none => exact hall
    | some at_ => simp

end Safe

/-! ### The parts of a URL -/

/-- A URL by its parts. -/
structure Url where
  scheme : Option (List Char)
  userinfo : Option (List Char)
  host : Option (List Char)
  path : List Char
  query : Option (List Char)
  fragment : Option (List Char)
  deriving DecidableEq

/-- What is behind the first of a symbol, if there is one. -/
def cutAt (c : Char) (text : List Char) : List Char × Option (List Char) :=
  match splitOnce c text with
  | some (front, rest) => (front, some rest)
  | none => (text, none)

/-- The scheme in front of the first colon. -/
def schemeOf (text : List Char) : Option (List Char) × List Char :=
  match splitOnce ':' text with
  | some (scheme, rest) => if scheme ≠ [] ∧ '/' ∉ scheme then (some scheme, rest) else (none, text)
  | none => (none, text)

namespace Url

/-- The parts by the generic syntax, `scheme://userinfo@host/path?query#fragment`. -/
def parse (url : List Char) : Url :=
  let (text, fragment) := cutAt '#' url
  let (front, query) := cutAt '?' text
  let (scheme, hierarchy) := schemeOf front
  match stripFront ['/', '/'] hierarchy with
  | some rest =>
    let authority := rest.takeWhile (· ≠ '/')
    let path := rest.dropWhile (· ≠ '/')
    match rsplitOnce '@' authority with
    | some (userinfo, host) => ⟨scheme, some userinfo, some host, path, query, fragment⟩
    | none => ⟨scheme, none, some authority, path, query, fragment⟩
  | none => ⟨scheme, none, none, hierarchy, query, fragment⟩

/-- A part with the symbol that announces it. -/
def announced (c : Char) (part : Option (List Char)) : List Char :=
  match part with
  | some part => c :: part
  | none => []

/-- A part with the symbol that ends it. -/
def ended (c : Char) (part : Option (List Char)) : List Char :=
  match part with
  | some part => part ++ [c]
  | none => []

/-- The URL up to its query. -/
def front (url : Url) : List Char :=
  ended ':' url.scheme ++
    (match url.host with
      | some host => '/' :: '/' :: (ended '@' url.userinfo ++ host)
      | none => []) ++ url.path

/-- The text of the parts. -/
def render (url : Url) : List Char :=
  url.front ++ (announced '?' url.query ++ announced '#' url.fragment)

/-- Parts that are read back from their text. -/
structure WellFormed (url : Url) : Prop where
  scheme : ∀ scheme ∈ url.scheme, scheme ≠ [] ∧ ∀ x ∈ scheme, x ≠ ':' ∧ endsAuthority x = false
  userinfo : ∀ userinfo ∈ url.userinfo,
    url.host ≠ none ∧ ∀ x ∈ userinfo, endsAuthority x = false
  host : ∀ host ∈ url.host, '@' ∉ host ∧ ∀ x ∈ host, endsAuthority x = false
  path : '?' ∉ url.path ∧ '#' ∉ url.path
  rooted : url.host ≠ none → ∀ x ∈ url.path.head?, x = '/'
  relative : url.host = none → ¬ ['/', '/'] <+: url.path
  schemeless : url.scheme = none → url.host = none → schemeOf url.path = (none, url.path)
  query : ∀ query ∈ url.query, '#' ∉ query

/-! ### Reading the parts back -/

section Parts

variable {text rest front : List Char} {part : Option (List Char)} {c : Char}

lemma cutAt_announced (h : c ∉ front) : cutAt c (front ++ announced c part) = (front, part) := by
  cases part with
  | none => rw [announced, List.append_nil, cutAt, splitOnce_eq_none.2 h]
  | some part => rw [announced, cutAt, splitOnce_append h]

lemma cutAt_eq (h : cutAt c text = (front, part)) :
    text = front ++ announced c part ∧ c ∉ front := by
  rw [cutAt] at h
  cases hsplit : splitOnce c text with
  | none =>
    rw [hsplit] at h
    obtain ⟨rfl, rfl⟩ : text = front ∧ none = part := by simpa using h
    exact ⟨(List.append_nil _).symm, splitOnce_eq_none.1 hsplit⟩
  | some parts =>
    rw [hsplit] at h
    obtain ⟨rfl, rfl⟩ : parts.1 = front ∧ some parts.2 = part := by simpa using h
    exact splitOnce_eq_some hsplit

lemma schemeOf_ended {scheme : List Char} (rest : List Char) (hne : scheme ≠ [])
    (hscheme : ∀ x ∈ scheme, x ≠ ':' ∧ endsAuthority x = false) :
    schemeOf (scheme ++ ':' :: rest) = (some scheme, rest) := by
  have hcolon : ':' ∉ scheme := fun h => (hscheme _ h).1 rfl
  have hslash : '/' ∉ scheme := fun h => absurd (hscheme _ h).2 (by decide)
  rw [schemeOf, splitOnce_append hcolon]
  dsimp only
  rw [if_pos ⟨hne, hslash⟩]

lemma schemeOf_slash : schemeOf ('/' :: rest) = (none, '/' :: rest) := by
  rw [schemeOf]
  cases hsplit : splitOnce ':' ('/' :: rest) with
  | none => rfl
  | some parts =>
    obtain ⟨scheme, after⟩ := parts
    obtain ⟨htext, -⟩ := splitOnce_eq_some hsplit
    dsimp only
    refine if_neg fun ⟨hne, hslash⟩ => ?_
    obtain ⟨x, scheme, rfl⟩ := List.exists_cons_of_ne_nil hne
    obtain ⟨rfl, -⟩ : '/' = x ∧ _ := by simpa using htext
    simp at hslash

lemma schemeOf_eq {scheme : Option (List Char)} (h : schemeOf text = (scheme, rest)) :
    text = ended ':' scheme ++ rest ∧
      (∀ name ∈ scheme, name ≠ [] ∧ ':' ∉ name ∧ '/' ∉ name) ∧
      (scheme = none → schemeOf rest = (none, rest)) := by
  have hnone : (none, text) = (scheme, rest) → schemeOf text = (none, text) →
      text = ended ':' scheme ++ rest ∧
        (∀ name ∈ scheme, name ≠ [] ∧ ':' ∉ name ∧ '/' ∉ name) ∧
        (scheme = none → schemeOf rest = (none, rest)) := by
    rintro heq hsame
    obtain ⟨rfl, rfl⟩ : none = scheme ∧ text = rest := by simpa using heq
    exact ⟨rfl, by simp, fun _ => hsame⟩
  have hscheme : schemeOf text = schemeOf text := rfl
  conv_rhs at hscheme => rw [schemeOf]
  cases hsplit : splitOnce ':' text with
  | none =>
    rw [hsplit] at hscheme
    exact hnone (hscheme.symm.trans h) hscheme
  | some parts =>
    obtain ⟨name, after⟩ := parts
    rw [hsplit] at hscheme
    dsimp only at hscheme
    split_ifs at hscheme with hname
    · obtain ⟨rfl, rfl⟩ : some name = scheme ∧ after = rest := by
        simpa using hscheme.symm.trans h
      obtain ⟨rfl, hcolon⟩ := splitOnce_eq_some hsplit
      refine ⟨by simp [ended], ?_, by simp⟩
      intro name' hname'
      obtain rfl : name = name' := by simpa using hname'
      exact ⟨hname.1, hcolon, hname.2⟩
    · exact hnone (hscheme.symm.trans h) hscheme

end Parts

lemma stripFront_slashes (rest : List Char) :
    stripFront ['/', '/'] ('/' :: '/' :: rest) = some rest := by
  rw [stripFront, if_pos (by simp)]
  rfl

lemma stripFront_eq_some {front text rest : List Char} (h : stripFront front text = some rest) :
    text = front ++ rest := by
  rw [stripFront] at h
  split_ifs at h with hfront
  obtain ⟨tail, rfl⟩ := hfront
  obtain rfl : tail = rest := by simpa using h
  rfl

lemma takeWhile_slash_append {authority path : List Char} (hauthority : '/' ∉ authority)
    (hpath : ∀ x ∈ path.head?, x = '/') :
    (authority ++ path).takeWhile (· ≠ '/') = authority ∧
      (authority ++ path).dropWhile (· ≠ '/') = path := by
  have hall : ∀ x ∈ authority, decide (x ≠ '/') = true := fun x hx =>
    decide_eq_true fun heq => hauthority (heq ▸ hx)
  rw [List.takeWhile_append_of_pos hall, List.dropWhile_append_of_pos hall]
  cases path with
  | nil => simp
  | cons x path =>
    obtain rfl : x = '/' := hpath x rfl
    simp

/-- The front of a URL has no `?` and no `#`. -/
lemma WellFormed.notMem_front {url : Url} (h : url.WellFormed) :
    '?' ∉ url.front ∧ '#' ∉ url.front := by
  have hpart : ∀ c, endsAuthority c = true → c ≠ '/' → c ≠ ':' → c ≠ '@' → c ∉ url.path →
      c ∉ url.front := by
    intro c hends hslash hcolon hat hpath hmem
    have hsafe : ∀ {text : List Char}, (∀ x ∈ text, endsAuthority x = false) → c ∉ text :=
      fun htext hin => by simp [htext c hin] at hends
    rcases List.mem_append.1 hmem with hmem | hmem
    · rcases List.mem_append.1 hmem with hmem | hmem
      · cases hscheme : url.scheme with
        | none => simp [hscheme, ended] at hmem
        | some scheme =>
          rw [hscheme, ended, List.mem_append] at hmem
          rcases hmem with hmem | hmem
          · exact hsafe (fun x hx => ((h.scheme scheme hscheme).2 x hx).2) hmem
          · exact hcolon (by simpa using hmem)
      · cases hhost : url.host with
        | none => simp [hhost] at hmem
        | some host =>
          simp only [hhost, List.mem_cons, List.mem_append, hslash, false_or] at hmem
          rcases hmem with hmem | hmem
          · cases huserinfo : url.userinfo with
            | none => simp [huserinfo, ended] at hmem
            | some userinfo =>
              rw [huserinfo, ended, List.mem_append] at hmem
              rcases hmem with hmem | hmem
              · exact hsafe (h.userinfo userinfo huserinfo).2 hmem
              · exact hat (by simpa using hmem)
          · exact hsafe (h.host host hhost).2 hmem
    · exact hpath hmem
  exact ⟨hpart '?' rfl (by decide) (by decide) (by decide) h.path.1,
    hpart '#' rfl (by decide) (by decide) (by decide) h.path.2⟩

/-- **The parts are read back from their text.** -/
lemma parse_render {url : Url} (h : url.WellFormed) : parse url.render = url := by
  obtain ⟨hquery, hfragment⟩ := h.notMem_front
  have htail : '#' ∉ url.front ++ announced '?' url.query := by
    rw [List.mem_append, not_or]
    refine ⟨hfragment, ?_⟩
    cases hq : url.query with
    | none => simp [announced]
    | some query => simpa [announced] using h.query query hq
  rw [render, ← List.append_assoc, parse, cutAt_announced htail]
  dsimp only
  rw [cutAt_announced hquery]
  dsimp only
  obtain ⟨scheme, userinfo, host, path, query, fragment⟩ := url
  obtain ⟨hscheme, huserinfo, hhost, -, hrooted, hrelative, hschemeless, -⟩ := h
  dsimp only at hscheme huserinfo hhost hrooted hrelative hschemeless
  cases host with
  | none =>
    obtain rfl : userinfo = none := by
      cases userinfo with
      | none => rfl
      | some userinfo => exact absurd rfl (huserinfo userinfo rfl).1
    have hsplit :
        schemeOf (front ⟨scheme, none, none, path, query, fragment⟩) = (scheme, path) := by
      cases scheme with
      | none => exact hschemeless rfl rfl
      | some scheme =>
        have hparts := schemeOf_ended path (hscheme scheme rfl).1 (hscheme scheme rfl).2
        simpa [front, ended] using hparts
    rw [hsplit]
    dsimp only
    rw [stripFront, if_neg (hrelative rfl)]
  | some host =>
    obtain ⟨hat, hhost⟩ := hhost host rfl
    have hsplit : schemeOf (front ⟨scheme, userinfo, some host, path, query, fragment⟩) =
        (scheme, '/' :: '/' :: ((ended '@' userinfo ++ host) ++ path)) := by
      cases scheme with
      | none => exact schemeOf_slash
      | some scheme =>
        have hparts := schemeOf_ended ('/' :: '/' :: ((ended '@' userinfo ++ host) ++ path))
          (hscheme scheme rfl).1 (hscheme scheme rfl).2
        simpa [front, ended] using hparts
    rw [hsplit]
    dsimp only
    rw [stripFront_slashes]
    dsimp only
    have hslash : '/' ∉ ended '@' userinfo ++ host := by
      rw [List.mem_append, not_or]
      refine ⟨?_, fun hmem => absurd (hhost _ hmem) (by decide)⟩
      cases userinfo with
      | none => simp [ended]
      | some userinfo =>
        have hnot : '/' ∉ userinfo := fun hmem =>
          absurd ((huserinfo userinfo rfl).2 _ hmem) (by decide)
        simpa [ended] using hnot
    obtain ⟨htake, hdrop⟩ := takeWhile_slash_append hslash (hrooted (by simp))
    rw [htake, hdrop]
    cases userinfo with
    | none => rw [ended, List.nil_append, rsplitOnce_eq_none.2 hat]
    | some userinfo =>
      rw [ended, List.append_assoc, List.singleton_append, rsplitOnce_append hat]

/-- **The text of the parts is the URL, and its parts are well formed.** -/
lemma render_parse (url : List Char) : (parse url).render = url ∧ (parse url).WellFormed := by
  obtain ⟨⟨text, fragment⟩, hfragment⟩ : ∃ parts, cutAt '#' url = parts := ⟨_, rfl⟩
  obtain ⟨rfl, htext⟩ := cutAt_eq hfragment
  obtain ⟨⟨before, query⟩, hquery⟩ : ∃ parts, cutAt '?' text = parts := ⟨_, rfl⟩
  obtain ⟨rfl, hbefore⟩ := cutAt_eq hquery
  obtain ⟨⟨scheme, hierarchy⟩, hscheme⟩ : ∃ parts, schemeOf before = parts := ⟨_, rfl⟩
  obtain ⟨rfl, hname, hnone⟩ := schemeOf_eq hscheme
  rw [List.mem_append, not_or] at htext hbefore
  obtain ⟨hfront, hqueryHash⟩ := htext
  rw [List.mem_append, not_or] at hfront
  have hsafeScheme : ∀ name ∈ scheme,
      name ≠ [] ∧ ∀ x ∈ name, x ≠ ':' ∧ endsAuthority x = false := by
    intro name hmem
    obtain rfl : scheme = some name := hmem
    obtain ⟨hne, hcolon, hslash⟩ := hname name rfl
    have hq : '?' ∉ name := fun hin => hbefore.1 (by simp [ended, hin])
    have hh : '#' ∉ name := fun hin => hfront.1 (by simp [ended, hin])
    refine ⟨hne, fun x hx => ⟨fun heq => hcolon (heq ▸ hx), ?_⟩⟩
    rw [endsAuthority, Bool.or_eq_false_iff, Bool.or_eq_false_iff]
    simp only [beq_eq_false_iff_ne, ne_eq]
    exact ⟨⟨fun heq => hslash (heq ▸ hx), fun heq => hq (heq ▸ hx)⟩, fun heq => hh (heq ▸ hx)⟩
  have hqueryWf : ∀ part ∈ query, '#' ∉ part := by
    intro part hmem
    obtain rfl : query = some part := hmem
    simpa [announced] using hqueryHash
  rw [parse, hfragment]
  dsimp only
  rw [hquery]
  dsimp only
  rw [hscheme]
  dsimp only
  cases hstrip : stripFront ['/', '/'] hierarchy with
  | some rest =>
    obtain rfl := stripFront_eq_some hstrip
    dsimp only
    have hrest : rest = rest.takeWhile (· ≠ '/') ++ rest.dropWhile (· ≠ '/') :=
      List.takeWhile_append_dropWhile.symm
    have hsafe : ∀ x ∈ rest.takeWhile (· ≠ '/'), endsAuthority x = false := by
      intro x hx
      have hslash : x ≠ '/' := by simpa using List.mem_takeWhile_imp hx
      have hmem : x ∈ rest := (List.takeWhile_prefix _).subset hx
      have hq : x ≠ '?' := fun heq => hbefore.2 (List.mem_append_right _ (heq ▸ hmem))
      have hh : x ≠ '#' := fun heq => hfront.2 (List.mem_append_right _ (heq ▸ hmem))
      simp [endsAuthority, hslash, hq, hh]
    have hpath : '?' ∉ rest.dropWhile (· ≠ '/') ∧ '#' ∉ rest.dropWhile (· ≠ '/') :=
      ⟨fun hin => hbefore.2 (by simp [(List.dropWhile_suffix _).subset hin]),
        fun hin => hfront.2 (by simp [(List.dropWhile_suffix _).subset hin])⟩
    have hrooted : ∀ x ∈ (rest.dropWhile (· ≠ '/')).head?, x = '/' := by
      intro x hx
      have hnot := List.head?_dropWhile_not (· ≠ '/') rest
      rw [hx] at hnot
      simpa using hnot
    cases hat : rsplitOnce '@' (rest.takeWhile (· ≠ '/')) with
    | none =>
      have hhost := rsplitOnce_eq_none.1 hat
      refine ⟨?_, hsafeScheme, by simp, ?_, hpath, fun _ => hrooted, by simp, by simp, hqueryWf⟩
      · rw [render, front]
        dsimp only
        rw [ended, List.nil_append]
        conv_rhs => rw [hrest]
        simp
      · rintro host ⟨⟩
        exact ⟨hhost, hsafe⟩
    | some parts =>
      obtain ⟨userinfo, host⟩ := parts
      obtain ⟨htake, hhost⟩ := rsplitOnce_eq_some hat
      rw [htake] at hrest hsafe
      refine ⟨?_, hsafeScheme, ?_, ?_, hpath, fun _ => hrooted, by simp, by simp, hqueryWf⟩
      · rw [render, front]
        dsimp only
        conv_rhs => rw [hrest]
        simp [ended]
      · rintro part ⟨⟩
        exact ⟨by simp, fun x hx => hsafe x (by simp [hx])⟩
      · rintro part ⟨⟩
        exact ⟨hhost, fun x hx => hsafe x (by simp [hx])⟩
  | none =>
    have hrelative : ¬ ['/', '/'] <+: hierarchy := fun hfound => by
      rw [stripFront, if_pos hfound] at hstrip
      cases hstrip
    refine ⟨?_, hsafeScheme, by simp, by simp, ⟨hbefore.2, hfront.2⟩, by simp, fun _ => hrelative,
      fun hs _ => hnone hs, hqueryWf⟩
    rw [render, front]
    simp

/-- The parts of a URL that are no secrets, and which of the others it has. -/
def visible (url : Url) : Url :=
  { url with
    userinfo := url.userinfo.map fun _ => []
    query := url.query.map fun _ => []
    fragment := url.fragment.map fun _ => [] }

/-- The secret parts are where they are cut off: userinfo behind a scheme, and no `?` in a fragment
that has no query in front of it. -/
def Sliced (url : Url) : Prop :=
  (url.userinfo = none ∨ url.scheme ≠ none) ∧
    (url.query ≠ none ∨ ∀ fragment ∈ url.fragment, '?' ∉ fragment)

/-- No secret part that could be out of its place. -/
def Closed (url : Url) : Prop :=
  (url.userinfo = none ∨ url.scheme ≠ none) ∧ (url.query ≠ none ∨ url.fragment = none)

instance (url : Url) : Decidable url.Sliced := by
  unfold Sliced
  cases url.fragment <;> infer_instance

instance (url : Url) : Decidable url.Closed := by
  unfold Closed
  infer_instance

/-! ### What is printed of the parts -/

section Printed

variable {url url' : Url}

/-- Of sliced parts the front is printed, and how the rest begins. -/
lemma redactUrl_render (h : url.WellFormed) (hsliced : url.Sliced) :
    redactUrl url.render = safeUrl url.front ++
      secretsMark (announced '?' url.query ++ announced '#' url.fragment) := by
  obtain ⟨hquery, hfragment⟩ := h.notMem_front
  refine redactUrl_append hquery hfragment ?_
  cases hq : url.query with
  | some query => exact .inr (.inl ⟨_, rfl⟩)
  | none =>
    cases hf : url.fragment with
    | none => exact .inl rfl
    | some fragment =>
      have hcut := hsliced.2.resolve_left fun hne => hne hq
      exact .inr (.inr ⟨fragment, rfl, hcut fragment hf⟩)

/-- Behind a scheme the userinfo is replaced. -/
lemma safeUrl_front {scheme userinfo host : List Char} (h : url.WellFormed)
    (hscheme : url.scheme = some scheme) (huserinfo : url.userinfo = some userinfo)
    (hhost : url.host = some host) :
    safeUrl url.front =
      scheme ++ authorityStart ++ redactedMark ++ '@' :: host ++ url.path := by
  have hcolon : ':' ∉ scheme := fun hmem => ((h.scheme scheme hscheme).2 _ hmem).1 rfl
  have hauthority : ∀ x ∈ userinfo ++ '@' :: host, endsAuthority x = false := by
    intro x hx
    rcases List.mem_append.1 hx with hx | hx
    · exact (h.userinfo userinfo huserinfo).2 x hx
    · rcases List.mem_cons.1 hx with rfl | hx
      · rfl
      · exact (h.host host hhost).2 x hx
  have hpath : ∀ x ∈ url.path.head?, endsAuthority x = true := fun x hx => by
    rw [h.rooted (by simp [hhost]) x hx]
    rfl
  obtain ⟨htake, hdrop⟩ := takeWhile_authority_append hauthority hpath
  have hfront : url.front =
      scheme ++ authorityStart ++ ((userinfo ++ '@' :: host) ++ url.path) := by
    rw [front, hscheme, huserinfo, hhost]
    simp [ended, authorityStart]
  have hsplit : splitText authorityStart
      (scheme ++ authorityStart ++ ((userinfo ++ '@' :: host) ++ url.path)) = _ :=
    splitText_of_notMem hcolon
  rw [hfront, safeUrl, hsplit]
  simp only [htake, hdrop, rsplitOnce_append (h.host host hhost).1]

/-- Parts with the same visible ones begin alike behind the front. -/
lemma secretsMark_of_visible (hsame : url.visible = url'.visible) :
    secretsMark (announced '?' url.query ++ announced '#' url.fragment) =
      secretsMark (announced '?' url'.query ++ announced '#' url'.fragment) := by
  obtain ⟨scheme, userinfo, host, path, query, fragment⟩ := url
  obtain ⟨scheme', userinfo', host', path', query', fragment'⟩ := url'
  simp only [visible, mk.injEq] at hsame
  obtain ⟨-, -, -, -, hquery, hfragment⟩ := hsame
  cases query <;> cases query' <;> cases fragment <;> cases fragment' <;>
    simp_all [announced, secretsMark]

/-- **Sliced secret parts are not printed.** -/
lemma redactUrl_render_eq (h : url.WellFormed) (h' : url'.WellFormed) (hsliced : url.Sliced)
    (hsliced' : url'.Sliced) (hsame : url.visible = url'.visible) :
    redactUrl url.render = redactUrl url'.render := by
  have hmark := secretsMark_of_visible hsame
  have hparts : url.scheme = url'.scheme ∧
      url.userinfo.map (fun _ => ([] : List Char)) = url'.userinfo.map (fun _ => []) ∧
      url.host = url'.host ∧ url.path = url'.path := by
    simp only [visible, mk.injEq] at hsame
    exact ⟨hsame.1, hsame.2.1, hsame.2.2.1, hsame.2.2.2.1⟩
  obtain ⟨hscheme, huserinfo, hhost, hpath⟩ := hparts
  have hfront : safeUrl url.front = safeUrl url'.front := by
    cases hinfo : url.userinfo with
    | none =>
      have hinfo' : url'.userinfo = none := by simpa [hinfo] using huserinfo.symm
      rw [front, front, hscheme, hinfo, hinfo', hhost, hpath]
    | some userinfo =>
      obtain ⟨userinfo', hinfo'⟩ : ∃ userinfo', url'.userinfo = some userinfo' := by
        cases hinfo' : url'.userinfo with
        | none => simp [hinfo, hinfo'] at huserinfo
        | some userinfo' => exact ⟨userinfo', rfl⟩
      obtain ⟨scheme, hs⟩ := Option.ne_none_iff_exists'.1 (hsliced.1.resolve_left (by simp [hinfo]))
      obtain ⟨host, hh⟩ := Option.ne_none_iff_exists'.1 (h.userinfo userinfo hinfo).1
      rw [safeUrl_front h hs hinfo hh,
        safeUrl_front h' (hscheme ▸ hs) hinfo' (hhost ▸ hh), hpath]
  rw [redactUrl_render h hsliced, redactUrl_render h' hsliced', hfront, hmark]

lemma Closed.sliced (h : url.Closed) : url.Sliced :=
  ⟨h.1, h.2.imp_right fun hnone => by simp [hnone]⟩

/-- Whether a URL is closed is seen from its visible parts. -/
lemma Closed.of_visible (h : url.Closed) (hsame : url.visible = url'.visible) : url'.Closed := by
  obtain ⟨scheme, userinfo, host, path, query, fragment⟩ := url
  obtain ⟨scheme', userinfo', host', path', query', fragment'⟩ := url'
  simp only [visible, mk.injEq] at hsame
  obtain ⟨rfl, huserinfo, -, -, hquery, hfragment⟩ := hsame
  refine ⟨h.1.imp_left fun hnone => ?_, h.2.imp (fun hne hnone => hne ?_) fun hnone => ?_⟩
  · simpa [show userinfo = none from hnone] using huserinfo.symm
  · simpa [show fragment = none from hnone] using hfragment.symm
  · simpa [show query' = none from hnone] using hquery

/-- A URL that is not closed has two variants that are printed differently. -/
lemma exists_variants (h : url.WellFormed) (hopen : ¬ url.Closed) :
    ∃ first second : Url, first.WellFormed ∧ second.WellFormed ∧
      url.visible = first.visible ∧ url.visible = second.visible ∧
      redactUrl first.render ≠ redactUrl second.render := by
  rw [Closed, not_and_or] at hopen
  rcases hopen with huserinfo | hfragment
  · -- userinfo without a scheme in front of it
    obtain ⟨hinfo, hscheme⟩ := not_or.1 huserinfo
    obtain ⟨userinfo, hinfo⟩ := Option.ne_none_iff_exists'.1 hinfo
    have hscheme : url.scheme = none := not_not.1 hscheme
    obtain ⟨host, hhost⟩ := Option.ne_none_iff_exists'.1 (h.userinfo userinfo hinfo).1
    have hvariant : ∀ c : Char, endsAuthority c = false →
        ({ url with userinfo := some [c] } : Url).WellFormed ∧
        url.visible = ({ url with userinfo := some [c] } : Url).visible ∧
        ['/', '/', c, '@'] <+: redactUrl ({ url with userinfo := some [c] } : Url).render := by
      intro c hc
      refine ⟨⟨h.scheme, ?_, h.host, h.path, h.rooted, h.relative, h.schemeless, h.query⟩, ?_, ?_⟩
      · rintro part ⟨⟩
        exact ⟨by simp [hhost], by simpa using hc⟩
      · simp [visible, hinfo]
      · have hprefix := @prefix_redactUrl_of_no_scheme [c]
          (host ++ (url.path ++ (announced '?' url.query ++ announced '#' url.fragment)))
          (by simpa using hc)
        simpa [render, front, hscheme, hhost, ended] using hprefix
    obtain ⟨hwf, hsame, hprefix⟩ := hvariant 'a' rfl
    obtain ⟨hwf', hsame', hprefix'⟩ := hvariant 'b' rfl
    refine ⟨_, _, hwf, hwf', hsame, hsame', fun heq => ?_⟩
    rw [heq] at hprefix
    have hshort := List.prefix_of_prefix_length_le hprefix hprefix' (by simp)
    exact absurd hshort (by decide)
  · -- a fragment without a query in front of it
    obtain ⟨hquery, hfragment⟩ := not_or.1 hfragment
    have hquery : url.query = none := not_not.1 hquery
    obtain ⟨fragment, hfragment⟩ := Option.ne_none_iff_exists'.1 hfragment
    have hvariant : ∀ part : List Char, ({ url with fragment := some part } : Url).WellFormed ∧
        url.visible = ({ url with fragment := some part } : Url).visible := fun part =>
      ⟨⟨h.scheme, h.userinfo, h.host, h.path, h.rooted, h.relative, h.schemeless, h.query⟩,
        by simp [visible, hfragment]⟩
    obtain ⟨hwf, hsame⟩ := hvariant []
    obtain ⟨hwf', hsame'⟩ := hvariant ['?']
    refine ⟨_, _, hwf, hwf', hsame, hsame', fun heq => ?_⟩
    have hrender : ∀ part, ({ url with fragment := some part } : Url).render =
        url.front ++ '#' :: part := fun part => by
      rw [render]
      simp [hquery, announced, front]
    obtain ⟨hnoQuery, hnoFragment⟩ := h.notMem_front
    rw [hrender, hrender, redactUrl_append hnoQuery hnoFragment (.inr (.inr ⟨[], rfl, by simp⟩)),
      show url.front ++ '#' :: ['?'] = url.front ++ "#?".toList from rfl,
      redactUrl_fragment_query hnoQuery, List.append_cancel_left_eq] at heq
    exact absurd heq (by decide)

end Printed

end Url

open Url

/-- **Sliced secret parts of a URL are not printed.** -/
lemma redactUrl_eq_of_sliced {url url' : List Char}
    (hsame : (Url.parse url).visible = (Url.parse url').visible) (h : (Url.parse url).Sliced)
    (h' : (Url.parse url').Sliced) : redactUrl url = redactUrl url' := by
  have heq := redactUrl_render_eq (render_parse url).2 (render_parse url').2 h h' hsame
  rwa [(render_parse url).1, (render_parse url').1] at heq

/-- **The URLs that are printed alike whatever their secret parts say.** -/
lemma redactUrl_const_iff (url : List Char) :
    (∀ url', (Url.parse url).visible = (Url.parse url').visible → redactUrl url = redactUrl url') ↔
      (Url.parse url).Closed := by
  constructor
  · intro hconst
    by_contra hopen
    obtain ⟨first, second, hwf, hwf', hsame, hsame', hne⟩ :=
      exists_variants (render_parse url).2 hopen
    refine hne ?_
    rw [← hconst first.render (by rwa [parse_render hwf]),
      ← hconst second.render (by rwa [parse_render hwf'])]
  · exact fun hclosed url' hsame =>
      redactUrl_eq_of_sliced hsame hclosed.sliced (hclosed.of_visible hsame).sliced

end Rupi
