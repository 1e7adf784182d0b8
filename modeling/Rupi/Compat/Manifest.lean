import Rupi.Store.Trace

/-!
Parsing package manifests (`package.json`).

- `Parser`: the bytes not yet read and the position of the first of them.
- `parseString`, `skipValue`, `parseStringArray`: the reader of one value.
- `parseObject`: the members of an object, handed to a `FieldReader`.
- `parseText`: the manifest and the warnings of a text.
- `Parser.Reaches`: a reader leaves an end of its input, at the position it says.
-/

namespace Rupi.Package

structure Manifest where
  name : Option String
  version : Option String
  description : Option String
  skillPaths : List String
  promptPaths : List String
  extensionPaths : List String
  deriving DecidableEq, Repr

def Manifest.empty : Manifest := ⟨none, none, none, [], [], []⟩

/-- A coarse classification of a value. -/
inductive ValueKind where
  | string | array | object | number | bool | null | unknown
  deriving DecidableEq, Repr

inductive Warning where
  | unsupportedSurface (surface : String) (count : Nat)
  | unknownSurface (key : String) (valueKind : ValueKind)
  | unreadable (path reason : String)
  | malformed (path reason : String)
  | duplicate (name kept ignored : String)
  | missingManifest (path : String)
  | invalidSurfacePath (surface path reason : String)
  deriving DecidableEq, Repr

structure Parse where
  manifest : Manifest
  warnings : List Warning
  deriving DecidableEq, Repr

/-! ### The parser -/

/-- What is left of the input, and where it starts. -/
structure Parser where
  pos : Nat
  rest : Bytes
  deriving DecidableEq, Repr

/-- A reader ends with a value or an error, and with the parser where it stopped. -/
abbrev Read (α : Type) := EStateM.Result String Parser α

def Read.final {α : Type} : Read α → Parser
  | .ok _ p => p
  | .error _ p => p

@[match_pattern] abbrev quote : UInt8 := 0x22
@[match_pattern] abbrev backslash : UInt8 := 0x5C
@[match_pattern] abbrev comma : UInt8 := 0x2C
@[match_pattern] abbrev colon : UInt8 := 0x3A
@[match_pattern] abbrev lbracket : UInt8 := 0x5B
@[match_pattern] abbrev rbracket : UInt8 := 0x5D
@[match_pattern] abbrev lbrace : UInt8 := 0x7B
@[match_pattern] abbrev rbrace : UInt8 := 0x7D

/-- A byte as the character of its number. -/
def byteText (b : UInt8) : String := String.singleton (Char.ofNat b.toNat)

def isSpace (b : UInt8) : Bool := b = 0x20 || b = 0x09 || b = 0x0A || b = 0x0D

def skipSpaces (pos : Nat) : Bytes → Parser
  | [] => ⟨pos, []⟩
  | b :: rest => if isSpace b then skipSpaces (pos + 1) rest else ⟨pos, b :: rest⟩

def Parser.skipWhitespace (p : Parser) : Parser := skipSpaces p.pos p.rest

def expectByte (byte : UInt8) (p : Parser) : Read Unit :=
  let p := p.skipWhitespace
  match p.rest with
  | b :: rest =>
    if b = byte then .ok () ⟨p.pos + 1, rest⟩
    else
      .error ("expected '" ++ byteText byte ++ "' at position " ++ toString p.pos ++ ", found '"
        ++ byteText b ++ "'") p
  | [] => .error ("unexpected end of input, expected '" ++ byteText byte ++ "'") p

/-! ### Strings -/

/-- Width of a UTF-8 character from its leading byte. -/
def utf8CharWidth (b : UInt8) : Nat :=
  if b ≤ 0x7F then 1
  else if 0xC0 ≤ b ∧ b ≤ 0xDF then 2
  else if 0xE0 ≤ b ∧ b ≤ 0xEF then 3
  else if 0xF0 ≤ b ∧ b ≤ 0xF7 then 4
  else 1

/-- The escapes of one letter. -/
def simpleEscape (e : UInt8) : Option Char :=
  if e = quote then some '"'
  else if e = backslash then some '\\'
  else if e = 0x6E then some '\n'
  else if e = 0x74 then some '\t'
  else if e = 0x72 then some '\r'
  else if e = 0x2F then some '/'
  else if e = 0x62 then some '\x08'
  else if e = 0x66 then some '\x0C'
  else none

def hexDigit? (b : UInt8) : Option Nat :=
  if 0x30 ≤ b ∧ b ≤ 0x39 then some (b.toNat - 0x30)
  else if 0x61 ≤ b ∧ b ≤ 0x66 then some (b.toNat - 0x61 + 10)
  else if 0x41 ≤ b ∧ b ≤ 0x46 then some (b.toNat - 0x41 + 10)
  else none

/-- The number four hexadecimal digits write. -/
def hexCode (h₁ h₂ h₃ h₄ : UInt8) : Option Nat := do
  let d₁ ← hexDigit? h₁
  let d₂ ← hexDigit? h₂
  let d₃ ← hexDigit? h₃
  let d₄ ← hexDigit? h₄
  return ((d₁ * 16 + d₂) * 16 + d₃) * 16 + d₄

/-- `char::from_u32`: no character is a surrogate. -/
def charFromU32 (code : Nat) : Option Char :=
  if code.isValidChar then some (Char.ofNat code) else none

/-- A number of at most four hexadecimal digits, in capitals, padded with zeros. -/
def upperHex (code : Nat) : String :=
  let digits := (Nat.toDigits 16 code).map Char.toUpper
  String.ofList (List.replicate (4 - digits.length) '0' ++ digits)

/-- A `\u` whose four digits break off. -/
def invalidUnicode (pos : Nat) (rest : Bytes) : Read String :=
  let digits := ((rest.take 4).takeWhile fun b => (hexDigit? b).isSome).length
  .error ("invalid unicode escape at position " ++ toString (pos + digits))
    ⟨pos + digits, rest.drop digits⟩

/-- One character of the input, or what lies there instead. -/
def slice (pos : Nat) (bytes rest : Bytes) (next : List Char → Read String) : Read String :=
  match fromUtf8 bytes with
  | some text => next text.toList
  | none => .error ("invalid UTF-8 at position " ++ toString pos) ⟨pos, bytes ++ rest⟩

/-- The characters of a string up to its closing quote. -/
def stringLoop (out : List Char) (pos : Nat) : Bytes → Read String
  | [] => .error "unterminated string" ⟨pos, []⟩
  | b :: rest =>
    if b = quote then .ok (String.ofList out) ⟨pos + 1, rest⟩
    else if b = backslash then
      match rest with
      | [] => .error "unterminated escape" ⟨pos + 1, []⟩
      | e :: rest =>
        match simpleEscape e with
        | some c => stringLoop (out ++ [c]) (pos + 2) rest
        | none =>
          if e = 0x75 then
            match rest with
            | h₁ :: h₂ :: h₃ :: h₄ :: rest' =>
              match hexCode h₁ h₂ h₃ h₄ with
              | some code =>
                match charFromU32 code with
                | some c => stringLoop (out ++ [c]) (pos + 6) rest'
                | none =>
                  .error ("unrepresentable code point U+" ++ upperHex code) ⟨pos + 6, rest'⟩
              | none => invalidUnicode (pos + 2) rest
            | _ => invalidUnicode (pos + 2) rest
          else
            -- an unknown escape stands for its own byte
            stringLoop (out ++ [Char.ofNat e.toNat]) (pos + 2) rest
    else
      match utf8CharWidth b, rest with
      | 1, rest' => slice pos [b] rest' fun text => stringLoop (out ++ text) (pos + 1) rest'
      | 2, b₁ :: rest' => slice pos [b, b₁] rest' fun text => stringLoop (out ++ text) (pos + 2) rest'
      | 3, b₁ :: b₂ :: rest' =>
        slice pos [b, b₁, b₂] rest' fun text => stringLoop (out ++ text) (pos + 3) rest'
      | 4, b₁ :: b₂ :: b₃ :: rest' =>
        slice pos [b, b₁, b₂, b₃] rest' fun text => stringLoop (out ++ text) (pos + 4) rest'
      | _, _ => .error ("truncated UTF-8 sequence at position " ++ toString pos) ⟨pos, b :: rest⟩

/-- Read a string value; the surrounding quotes are consumed. -/
def parseString (p : Parser) : Read String :=
  let p := p.skipWhitespace
  match p.rest with
  | b :: rest =>
    if b = quote then stringLoop [] (p.pos + 1) rest
    else
      .error ("expected '\"' at position " ++ toString p.pos ++ ", found '" ++ byteText b ++ "'") p
  | [] => .error "unexpected end of input, expected '\"'" p

/-! ### Where a reader stops -/

/-- `p'` is `p` after some of its bytes. -/
def Parser.Reaches (p p' : Parser) : Prop :=
  ∃ used, p.rest = used ++ p'.rest ∧ p'.pos = p.pos + used.length

namespace Parser.Reaches

lemma refl (p : Parser) : p.Reaches p := ⟨[], rfl, rfl⟩

lemma trans {p p' p'' : Parser} (h : p.Reaches p') (h' : p'.Reaches p'') : p.Reaches p'' := by
  obtain ⟨used, hrest, hpos⟩ := h
  obtain ⟨used', hrest', hpos'⟩ := h'
  refine ⟨used ++ used', by rw [hrest, hrest', List.append_assoc], ?_⟩
  rw [hpos', hpos, List.length_append, Nat.add_assoc]

lemma length_le {p p' : Parser} (h : p.Reaches p') : p'.rest.length ≤ p.rest.length := by
  obtain ⟨used, hrest, -⟩ := h
  rw [hrest, List.length_append]
  exact Nat.le_add_left _ _

lemma pos_add_length {p p' : Parser} (h : p.Reaches p') :
    p'.pos + p'.rest.length = p.pos + p.rest.length := by
  obtain ⟨used, hrest, hpos⟩ := h
  rw [hrest, hpos, List.length_append, Nat.add_assoc]

/-- The bytes in front of the place reached. -/
lemma of_append (pos : Nat) (used rest : Bytes) :
    Parser.Reaches ⟨pos, used ++ rest⟩ ⟨pos + used.length, rest⟩ :=
  ⟨used, rfl, rfl⟩

lemma cons (pos : Nat) (b : UInt8) (rest : Bytes) :
    Parser.Reaches ⟨pos, b :: rest⟩ ⟨pos + 1, rest⟩ :=
  ⟨[b], rfl, rfl⟩

lemma of_rest {p : Parser} {b : UInt8} {rest : Bytes} (h : p.rest = b :: rest) :
    p.Reaches ⟨p.pos + 1, rest⟩ :=
  ⟨[b], h, rfl⟩

end Parser.Reaches

lemma reaches_skipSpaces (pos : Nat) (rest : Bytes) :
    Parser.Reaches ⟨pos, rest⟩ (skipSpaces pos rest) := by
  induction rest generalizing pos with
  | nil => exact Parser.Reaches.refl _
  | cons b rest ih =>
    rw [skipSpaces]
    split_ifs
    · exact (Parser.Reaches.cons pos b rest).trans (ih (pos + 1))
    · exact Parser.Reaches.refl _

lemma Parser.reaches_skipWhitespace (p : Parser) : p.Reaches p.skipWhitespace :=
  reaches_skipSpaces p.pos p.rest

lemma reaches_expectByte (byte : UInt8) (p : Parser) : p.Reaches (expectByte byte p).final := by
  refine p.reaches_skipWhitespace.trans ?_
  unfold expectByte
  dsimp only
  split
  · next b rest hrest =>
    split_ifs
    · exact Parser.Reaches.of_rest hrest
    · exact Parser.Reaches.refl _
  · exact Parser.Reaches.refl _

lemma reaches_invalidUnicode (pos : Nat) (rest : Bytes) :
    Parser.Reaches ⟨pos, rest⟩ (invalidUnicode pos rest).final := by
  set digits := ((rest.take 4).takeWhile fun b => (hexDigit? b).isSome) with hdigits
  have hprefix : digits <+: rest := (List.takeWhile_prefix _).trans (List.take_prefix _ _)
  refine ⟨digits, ?_, rfl⟩
  show rest = digits ++ rest.drop digits.length
  obtain ⟨tail, htail⟩ := hprefix
  rw [← htail, List.drop_left]

lemma reaches_slice {pos : Nat} {bytes rest : Bytes} {next : List Char → Read String}
    (h : ∀ text, Parser.Reaches ⟨pos + bytes.length, rest⟩ (next text).final) :
    Parser.Reaches ⟨pos, bytes ++ rest⟩ (slice pos bytes rest next).final := by
  unfold slice
  split
  · exact (Parser.Reaches.of_append pos bytes rest).trans (h _)
  · exact Parser.Reaches.refl _

lemma reaches_stringLoop (out : List Char) (pos : Nat) (rest : Bytes) :
    Parser.Reaches ⟨pos, rest⟩ (stringLoop out pos rest).final := by
  have hunicode := fun pos h₁ h₂ h₃ h₄ rest =>
    Parser.Reaches.of_append pos [backslash, 0x75, h₁, h₂, h₃, h₄] rest
  have hescape := fun pos b e rest => Parser.Reaches.of_append pos [b, e] rest
  fun_induction stringLoop out pos rest with
  | case1 => exact Parser.Reaches.refl _
  | case2 => exact Parser.Reaches.cons _ _ _
  | case3 => exact Parser.Reaches.cons _ _ _
  | case4 _ _ _ _ _ _ _ ih => exact (hescape _ _ _ _).trans ih
  | case5 _ _ _ _ _ _ _ _ _ _ _ _ _ ih => exact (hunicode _ _ _ _ _ _).trans ih
  | case6 => exact hunicode _ _ _ _ _ _
  | case7 => exact (hescape _ _ _ _).trans (reaches_invalidUnicode _ _)
  | case8 => exact (hescape _ _ _ _).trans (reaches_invalidUnicode _ _)
  | case9 _ _ _ _ _ _ _ ih => exact (hescape _ _ _ _).trans ih
  | case10 _ _ _ _ _ _ _ ih => exact @reaches_slice _ [_] _ _ ih
  | case11 _ _ _ _ _ _ _ _ ih => exact @reaches_slice _ [_, _] _ _ ih
  | case12 _ _ _ _ _ _ _ _ _ ih => exact @reaches_slice _ [_, _, _] _ _ ih
  | case13 _ _ _ _ _ _ _ _ _ _ ih => exact @reaches_slice _ [_, _, _, _] _ _ ih
  | case14 => exact Parser.Reaches.refl _

lemma reaches_parseString (p : Parser) : p.Reaches (parseString p).final := by
  refine p.reaches_skipWhitespace.trans ?_
  unfold parseString
  dsimp only
  split
  · next b rest hrest =>
    split_ifs
    · exact (Parser.Reaches.of_rest hrest).trans (reaches_stringLoop _ _ _)
    · exact Parser.Reaches.refl _
  · exact Parser.Reaches.refl _

/-- A string is longer than nothing. -/
lemma length_lt_of_parseString {p p' : Parser} {text : String}
    (h : parseString p = .ok text p') : p'.rest.length < p.rest.length := by
  have hspaces := p.reaches_skipWhitespace.length_le
  unfold parseString at h
  dsimp only at h
  split at h
  · next b rest hrest =>
    split_ifs at h
    have hloop := (reaches_stringLoop [] (p.skipWhitespace.pos + 1) rest).length_le
    rw [h] at hloop
    rw [hrest] at hspaces
    exact Nat.lt_of_lt_of_le (Nat.lt_succ_of_le hloop) hspaces
  · cases h

/-! ### Values -/

/-- Step past brackets by their depth, and past whole strings between them. -/
def skipNested (opening closing : UInt8) (unterminated : String) (depth : Nat) (p : Parser) :
    Read Unit :=
  match depth with
  | 0 => .ok () p
  | depth + 1 =>
    match hrest : p.rest with
    | [] => .error unterminated p
    | b :: rest =>
      if b = opening then skipNested opening closing unterminated (depth + 2) ⟨p.pos + 1, rest⟩
      else if b = closing then skipNested opening closing unterminated depth ⟨p.pos + 1, rest⟩
      else if b = quote then
        match hstring : parseString p with
        | .ok _ p' => skipNested opening closing unterminated (depth + 1) p'
        | .error e p' => .error e p'
      else skipNested opening closing unterminated (depth + 1) ⟨p.pos + 1, rest⟩
termination_by p.rest.length
decreasing_by
  · simp [hrest]
  · simp [hrest]
  · exact length_lt_of_parseString hstring
  · simp [hrest]

lemma reaches_skipNested (opening closing : UInt8) (unterminated : String) (depth : Nat)
    (p : Parser) : p.Reaches (skipNested opening closing unterminated depth p).final := by
  fun_induction skipNested opening closing unterminated depth p with
  | case1 => exact Parser.Reaches.refl _
  | case2 => exact Parser.Reaches.refl _
  | case3 _ _ _ hrest ih => exact (Parser.Reaches.of_rest hrest).trans ih
  | case4 _ _ _ hrest _ ih => exact (Parser.Reaches.of_rest hrest).trans ih
  | case5 p _ _ _ _ hstring _ _ _ ih =>
    have hreaches := reaches_parseString p
    rw [hstring] at hreaches
    exact hreaches.trans ih
  | case6 p _ _ _ _ hstring =>
    have hreaches := reaches_parseString p
    rwa [hstring] at hreaches
  | case7 _ _ _ _ hrest _ _ _ ih => exact (Parser.Reaches.of_rest hrest).trans ih

/-- A literal ends where a delimiter begins. -/
def isDelimiter (b : UInt8) : Bool := b = comma || b = rbrace || b = rbracket || isSpace b

def skipLiteral (pos : Nat) : Bytes → Parser
  | [] => ⟨pos, []⟩
  | b :: rest => if isDelimiter b then ⟨pos, b :: rest⟩ else skipLiteral (pos + 1) rest

lemma reaches_skipLiteral (pos : Nat) (rest : Bytes) :
    Parser.Reaches ⟨pos, rest⟩ (skipLiteral pos rest) := by
  induction rest generalizing pos with
  | nil => exact Parser.Reaches.refl _
  | cons b rest ih =>
    rw [skipLiteral]
    split_ifs
    · exact Parser.Reaches.refl _
    · exact (Parser.Reaches.cons pos b rest).trans (ih (pos + 1))

/-- Skip one value without retaining its content. -/
def skipValue (p : Parser) : Read Unit :=
  let p := p.skipWhitespace
  match p.rest with
  | [] => .error "unexpected end of input in value" p
  | b :: rest =>
    if b = quote then
      match parseString p with
      | .ok _ p => .ok () p
      | .error e p => .error e p
    else if b = lbracket then
      skipNested lbracket rbracket "unterminated array in skip" 1 ⟨p.pos + 1, rest⟩
    else if b = lbrace then
      skipNested lbrace rbrace "unterminated object in skip" 1 ⟨p.pos + 1, rest⟩
    else .ok () (skipLiteral p.pos p.rest)

lemma reaches_skipValue (p : Parser) : p.Reaches (skipValue p).final := by
  refine p.reaches_skipWhitespace.trans ?_
  unfold skipValue
  dsimp only
  split
  · exact Parser.Reaches.refl _
  · next b rest hrest =>
    split_ifs
    · have hreaches := reaches_parseString p.skipWhitespace
      split
      · next hstring => rwa [hstring] at hreaches
      · next hstring => rwa [hstring] at hreaches
    · exact (Parser.Reaches.of_rest hrest).trans (reaches_skipNested _ _ _ _ _)
    · exact (Parser.Reaches.of_rest hrest).trans (reaches_skipNested _ _ _ _ _)
    · exact reaches_skipLiteral _ _

/-- What the first byte of a value says about it. -/
def valueKind : Bytes → ValueKind
  | [] => .unknown
  | b :: rest =>
    if isSpace b then valueKind rest
    else if b = quote then .string
    else if b = lbracket then .array
    else if b = lbrace then .object
    else if b = 0x74 ∨ b = 0x66 then .bool
    else if b = 0x6E then .null
    else if 0x30 ≤ b ∧ b ≤ 0x39 ∨ b = 0x2D then .number
    else .unknown

/-! ### Arrays of strings -/

/-- One item of an array; only strings are kept. -/
def arrayItem (items : List String) (p : Parser) : Read (List String) :=
  if p.rest.head? = some quote then
    match parseString p with
    | .ok item p => .ok (items ++ [item]) p
    | .error e p => .error e p
  else
    match skipValue p with
    | .ok () p => .ok items p
    | .error e p => .error e p

lemma reaches_arrayItem (items : List String) (p : Parser) :
    p.Reaches (arrayItem items p).final := by
  unfold arrayItem
  split_ifs
  · have hreaches := reaches_parseString p
    split <;> next h => rwa [h] at hreaches
  · have hreaches := reaches_skipValue p
    split <;> next h => rwa [h] at hreaches

/-- An item and the spaces around it. -/
lemma reaches_item {items items' : List String} {p p' : Parser}
    (h : arrayItem items p.skipWhitespace = .ok items' p') : p.Reaches p'.skipWhitespace := by
  have hreaches := reaches_arrayItem items p.skipWhitespace
  rw [h] at hreaches
  exact p.reaches_skipWhitespace.trans (hreaches.trans p'.reaches_skipWhitespace)

/-- The items of an array, up to its closing bracket. -/
def arrayLoop (items : List String) (p : Parser) : Read (List String) :=
  match _hitem : arrayItem items p.skipWhitespace with
  | .error e p => .error e p
  | .ok items' p' =>
    match _hrest : p'.skipWhitespace.rest with
    | [] => .error "unterminated array" p'.skipWhitespace
    | b :: rest =>
      if b = comma then arrayLoop items' ⟨p'.skipWhitespace.pos + 1, rest⟩
      else if b = rbracket then .ok items' ⟨p'.skipWhitespace.pos + 1, rest⟩
      else
        .error ("expected ',' or ']' at position " ++ toString p'.skipWhitespace.pos
          ++ ", found '" ++ byteText b ++ "'") p'.skipWhitespace
termination_by p.rest.length
decreasing_by
  have hlength := (reaches_item _hitem).length_le
  rw [_hrest] at hlength
  exact hlength

lemma reaches_arrayLoop (items : List String) (p : Parser) :
    p.Reaches (arrayLoop items p).final := by
  fun_induction arrayLoop items p with
  | case1 items p _ _ hitem =>
    have hreaches := reaches_arrayItem items p.skipWhitespace
    rw [hitem] at hreaches
    exact p.reaches_skipWhitespace.trans hreaches
  | case2 _ _ _ _ hitem => exact reaches_item hitem
  | case3 _ _ _ _ hitem _ hrest ih =>
    exact (reaches_item hitem).trans ((Parser.Reaches.of_rest hrest).trans ih)
  | case4 _ _ _ _ hitem _ hrest =>
    exact (reaches_item hitem).trans (Parser.Reaches.of_rest hrest)
  | case5 _ _ _ _ hitem => exact reaches_item hitem

/-- Read an array of strings; items of other kinds are skipped. -/
def parseStringArray (p : Parser) : Read (List String) :=
  match expectByte lbracket p with
  | .error e p => .error e p
  | .ok () p =>
    let p := p.skipWhitespace
    if p.rest.head? = some rbracket then .ok [] ⟨p.pos + 1, p.rest.tail⟩
    else arrayLoop [] p

lemma reaches_parseStringArray (p : Parser) : p.Reaches (parseStringArray p).final := by
  have hbyte := reaches_expectByte lbracket p
  unfold parseStringArray
  split
  · next h => rwa [h] at hbyte
  · next p' h =>
    rw [h] at hbyte
    dsimp only
    split_ifs with hhead
    · obtain ⟨rest, hrest⟩ := List.head?_eq_some_iff.mp hhead
      rw [hrest]
      exact hbyte.trans (p'.reaches_skipWhitespace.trans (Parser.Reaches.of_rest hrest))
    · exact hbyte.trans (p'.reaches_skipWhitespace.trans (reaches_arrayLoop _ _))

/-! ### Objects -/

/-- What is done with a member of an object; the reader stands behind its colon. -/
structure FieldReader (σ : Type) where
  read : String → σ → Parser → σ × Read Unit
  reaches : ∀ key s (p : Parser), p.Reaches (read key s p).2.final

/-- The key of a member and its colon. -/
def parseKey (p : Parser) : Read String :=
  match parseString p.skipWhitespace with
  | .error e p => .error e p
  | .ok key p =>
    match expectByte colon p.skipWhitespace with
    | .error e p => .error e p
    | .ok () p => .ok key p

lemma reaches_parseKey (p : Parser) : p.Reaches (parseKey p).final := by
  have hstring := p.reaches_skipWhitespace.trans (reaches_parseString p.skipWhitespace)
  unfold parseKey
  split
  · next h => rwa [h] at hstring
  · next key p' h =>
    rw [h] at hstring
    have hbyte := p'.reaches_skipWhitespace.trans (reaches_expectByte colon p'.skipWhitespace)
    split <;> next h' =>
      rw [h'] at hbyte
      exact hstring.trans hbyte

/-- A member and the spaces behind it. -/
lemma FieldReader.reaches_member {σ : Type} (fields : FieldReader σ) {s s' : σ}
    {p p' p'' : Parser} {key : String} (hkey : parseKey p = .ok key p')
    (hfield : fields.read key s p' = (s', .ok () p'')) : p.Reaches p''.skipWhitespace := by
  have hreadkey := reaches_parseKey p
  rw [hkey] at hreadkey
  have hread := fields.reaches key s p'
  rw [hfield] at hread
  exact hreadkey.trans (hread.trans p''.reaches_skipWhitespace)

/-- The members of an object, up to its closing brace. -/
def memberLoop {σ : Type} (fields : FieldReader σ) (s : σ) (p : Parser) : σ × Read Unit :=
  match _hkey : parseKey p with
  | .error e p' => (s, .error e p')
  | .ok key p' =>
    match _hfield : fields.read key s p' with
    | (s', .error e p'') => (s', .error e p'')
    | (s', .ok () p'') =>
      match _hrest : p''.skipWhitespace.rest with
      | [] => (s', .error "unterminated object" p''.skipWhitespace)
      | b :: rest =>
        if b = comma then memberLoop fields s' ⟨p''.skipWhitespace.pos + 1, rest⟩
        else if b = rbrace then (s', .ok () ⟨p''.skipWhitespace.pos + 1, rest⟩)
        else
          (s', .error ("expected ',' or '\x7d' at position " ++ toString p''.skipWhitespace.pos
            ++ ", found '" ++ byteText b ++ "'") p''.skipWhitespace)
termination_by p.rest.length
decreasing_by
  have hlength := (fields.reaches_member _hkey _hfield).length_le
  rw [_hrest] at hlength
  exact hlength

lemma reaches_memberLoop {σ : Type} (fields : FieldReader σ) (s : σ) (p : Parser) :
    p.Reaches (memberLoop fields s p).2.final := by
  fun_induction memberLoop fields s p with
  | case1 _ p _ _ hkey =>
    have hreadkey := reaches_parseKey p
    rwa [hkey] at hreadkey
  | case2 s p key p' hkey s' e p'' hfield =>
    have hreadkey := reaches_parseKey p
    have hread := fields.reaches key s p'
    rw [hkey] at hreadkey
    rw [hfield] at hread
    exact hreadkey.trans hread
  | case3 _ _ _ _ hkey _ _ hfield => exact fields.reaches_member hkey hfield
  | case4 _ _ _ _ hkey _ _ hfield _ hrest ih =>
    exact (fields.reaches_member hkey hfield).trans ((Parser.Reaches.of_rest hrest).trans ih)
  | case5 _ _ _ _ hkey _ _ hfield _ hrest =>
    exact (fields.reaches_member hkey hfield).trans (Parser.Reaches.of_rest hrest)
  | case6 _ _ _ _ hkey _ _ hfield => exact fields.reaches_member hkey hfield

/-- Read an object, handing its members to a field reader. -/
def parseObject {σ : Type} (fields : FieldReader σ) (s : σ) (p : Parser) : σ × Read Unit :=
  match expectByte lbrace p with
  | .error e p' => (s, .error e p')
  | .ok () p' =>
    if p'.skipWhitespace.rest.head? = some rbrace then
      (s, .ok () ⟨p'.skipWhitespace.pos + 1, p'.skipWhitespace.rest.tail⟩)
    else memberLoop fields s p'.skipWhitespace

lemma reaches_parseObject {σ : Type} (fields : FieldReader σ) (s : σ) (p : Parser) :
    p.Reaches (parseObject fields s p).2.final := by
  have hbyte := reaches_expectByte lbrace p
  unfold parseObject
  split
  · next h => rwa [h] at hbyte
  · next p' h =>
    rw [h] at hbyte
    split_ifs with hhead
    · obtain ⟨rest, hrest⟩ := List.head?_eq_some_iff.mp hhead
      rw [hrest]
      exact hbyte.trans (p'.reaches_skipWhitespace.trans (Parser.Reaches.of_rest hrest))
    · exact hbyte.trans (p'.reaches_skipWhitespace.trans (reaches_memberLoop _ _ _))

/-! ### The manifest -/

/-- The string member of an object, put where it belongs. -/
def readText {σ : Type} (set : String → σ → σ) (s : σ) (p : Parser) : σ × Read Unit :=
  match parseString p with
  | .ok text p => (set text s, .ok () p)
  | .error e p => (s, .error e p)

def readPaths {σ : Type} (set : List String → σ → σ) (s : σ) (p : Parser) : σ × Read Unit :=
  match parseStringArray p with
  | .ok paths p => (set paths s, .ok () p)
  | .error e p => (s, .error e p)

/-- A member whose content is not read. -/
def passValue {σ : Type} (s : σ) (p : Parser) : σ × Read Unit := (s, skipValue p)

lemma reaches_readText {σ : Type} (set : String → σ → σ) (s : σ) (p : Parser) :
    p.Reaches (readText set s p).2.final := by
  have hreaches := reaches_parseString p
  unfold readText
  split <;> next h => rwa [h] at hreaches

lemma reaches_readPaths {σ : Type} (set : List String → σ → σ) (s : σ) (p : Parser) :
    p.Reaches (readPaths set s p).2.final := by
  have hreaches := reaches_parseStringArray p
  unfold readPaths
  split <;> next h => rwa [h] at hreaches

def Parse.setName (text : String) (s : Parse) : Parse :=
  { s with manifest := { s.manifest with name := some text } }

def Parse.setVersion (text : String) (s : Parse) : Parse :=
  { s with manifest := { s.manifest with version := some text } }

def Parse.setDescription (text : String) (s : Parse) : Parse :=
  { s with manifest := { s.manifest with description := some text } }

def Parse.setSkillPaths (paths : List String) (s : Parse) : Parse :=
  { s with manifest := { s.manifest with skillPaths := paths } }

def Parse.setPromptPaths (paths : List String) (s : Parse) : Parse :=
  { s with manifest := { s.manifest with promptPaths := paths } }

def Parse.warn (warning : Warning) (s : Parse) : Parse :=
  { s with warnings := s.warnings ++ [warning] }

def Parse.setExtensionPaths (paths : List String) (s : Parse) : Parse :=
  Parse.warn (.unsupportedSurface "extensions" paths.length)
    { s with manifest := { s.manifest with extensionPaths := paths } }

/-- The members of the `pi` object. -/
def piFields : FieldReader Parse where
  read key s p :=
    if key = "skills" then readPaths Parse.setSkillPaths s p
    else if key = "prompts" then readPaths Parse.setPromptPaths s p
    else passValue (s.warn (.unknownSurface key (valueKind p.rest))) p
  reaches key s p := by
    split_ifs
    · exact reaches_readPaths _ _ _
    · exact reaches_readPaths _ _ _
    · exact reaches_skipValue _

/-- The entry points of `extensions`, or a value of another kind. -/
def readExtensions (s : Parse) (p : Parser) : Parse × Read Unit :=
  if valueKind p.rest = .array then readPaths Parse.setExtensionPaths s p
  else
    match skipValue p with
    | .ok () p => (s.warn (.unsupportedSurface "extensions" 0), .ok () p)
    | .error e p => (s, .error e p)

lemma reaches_readExtensions (s : Parse) (p : Parser) :
    p.Reaches (readExtensions s p).2.final := by
  have hreaches := reaches_skipValue p
  unfold readExtensions
  split_ifs
  · exact reaches_readPaths _ _ _
  · split <;> next h => rwa [h] at hreaches

/-- The members of the manifest. -/
def topFields : FieldReader Parse where
  read key s p :=
    if key = "name" then readText Parse.setName s p
    else if key = "version" then readText Parse.setVersion s p
    else if key = "description" then readText Parse.setDescription s p
    else if key = "pi" then parseObject piFields s p
    else if key = "extensions" then readExtensions s p
    else passValue s p
  reaches key s p := by
    split_ifs
    · exact reaches_readText _ _ _
    · exact reaches_readText _ _ _
    · exact reaches_readText _ _ _
    · exact reaches_parseObject _ _ _
    · exact reaches_readExtensions _ _
    · exact reaches_skipValue _

def parseTopLevel (s : Parse) (p : Parser) : Parse × Read Unit :=
  parseObject topFields s p.skipWhitespace

/-- The manifest and the warnings of a text. -/
def parseText (text path : String) : Parse :=
  match parseTopLevel { manifest := Manifest.empty, warnings := [] } ⟨0, utf8Bytes text.toList⟩ with
  | (s, .ok () _) => s
  | (s, .error reason _) => s.warn (.malformed path reason)

/-- **The position never leaves the input**, wherever the reader stops. -/
theorem pos_add_length_of_parseTopLevel (s : Parse) (input : Bytes) :
    (parseTopLevel s ⟨0, input⟩).2.final.pos + (parseTopLevel s ⟨0, input⟩).2.final.rest.length =
      input.length := by
  have hreaches := (Parser.reaches_skipWhitespace ⟨0, input⟩).trans
    (reaches_parseObject topFields s _)
  exact hreaches.pos_add_length.trans (Nat.zero_add _)

end Rupi.Package
