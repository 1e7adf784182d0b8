import Rupi.Compat.Manifest

/-!
The texts the manifest reader takes.

- `LooseChars` … `LooseObject`: the reader's own grammar, looser than JSON: a skipped
  array or object is anything with its brackets closed, a literal is any run up to a
  delimiter, and nothing is asked of what follows the manifest.
- `Yields`: a reader ends with a value and a rest.
- `stringLoop_complete` … `parseObject_complete`: what the grammar derives is read.
- `stringLoop_sound` … `parseObject_sound`: what is read the grammar derives.
-/

namespace Rupi.Package

/-! ### The grammar -/

def Spaces (raw : Bytes) : Prop := ∀ b ∈ raw, isSpace b = true

/-- The characters of a string, as their bytes. -/
inductive LooseChars : List Char → Bytes → Prop
  | nil : LooseChars [] []
  | char {b : UInt8} {tail raw : Bytes} {text : String} {out : List Char}
      (hwidth : utf8CharWidth b = tail.length + 1) (hquote : b ≠ quote) (hback : b ≠ backslash)
      (htext : fromUtf8 (b :: tail) = some text) (hrest : LooseChars out raw) :
      LooseChars (text.toList ++ out) (b :: tail ++ raw)
  | escape {e : UInt8} {raw : Bytes} {c : Char} {out : List Char} (hescape : simpleEscape e = some c)
      (hrest : LooseChars out raw) : LooseChars (c :: out) (backslash :: e :: raw)
  | unicode {h₁ h₂ h₃ h₄ : UInt8} {raw : Bytes} {code : Nat} {c : Char} {out : List Char}
      (hcode : hexCode h₁ h₂ h₃ h₄ = some code) (hchar : charFromU32 code = some c)
      (hrest : LooseChars out raw) :
      LooseChars (c :: out) (backslash :: 0x75 :: h₁ :: h₂ :: h₃ :: h₄ :: raw)
  | unknown {e : UInt8} {raw : Bytes} {out : List Char} (hescape : simpleEscape e = none)
      (hunicode : e ≠ 0x75) (hrest : LooseChars out raw) :
      LooseChars (Char.ofNat e.toNat :: out) (backslash :: e :: raw)

def LooseString (text : String) (raw : Bytes) : Prop :=
  ∃ out chars, raw = quote :: (chars ++ [quote]) ∧ LooseChars out chars ∧ text = String.ofList out

/-- Bytes with their brackets of one kind closed, whatever else they are. -/
inductive Balanced (opening closing : UInt8) : Bytes → Prop
  | nil : Balanced opening closing []
  | byte {b : UInt8} {raw : Bytes} (hopening : b ≠ opening) (hclosing : b ≠ closing)
      (hquote : b ≠ quote) (hrest : Balanced opening closing raw) :
      Balanced opening closing (b :: raw)
  | string {text : String} {inner raw : Bytes} (hstring : LooseString text inner)
      (hrest : Balanced opening closing raw) : Balanced opening closing (inner ++ raw)
  | nested {inner raw : Bytes} (hinner : Balanced opening closing inner)
      (hrest : Balanced opening closing raw) :
      Balanced opening closing (opening :: (inner ++ closing :: raw))

/-- A value, with its text when it is a string. -/
inductive LooseValue : Option String → Bytes → Prop
  | string {text : String} {raw : Bytes} (h : LooseString text raw) : LooseValue (some text) raw
  | array {inner : Bytes} (h : Balanced lbracket rbracket inner) :
      LooseValue none (lbracket :: (inner ++ [rbracket]))
  | object {inner : Bytes} (h : Balanced lbrace rbrace inner) :
      LooseValue none (lbrace :: (inner ++ [rbrace]))
  | literal {b : UInt8} {raw : Bytes} (hquote : b ≠ quote) (hbracket : b ≠ lbracket)
      (hbrace : b ≠ lbrace) (hrun : ∀ b' ∈ b :: raw, isDelimiter b' = false) :
      LooseValue none (b :: raw)

/-- Something with spaces around it. -/
def Padded (inner : Bytes → Prop) (raw : Bytes) : Prop :=
  ∃ front value back, raw = front ++ (value ++ back) ∧ Spaces front ∧ Spaces back ∧ inner value

/-- The place of a value; the value may be missing. -/
def LooseSlot (text : Option String) (raw : Bytes) : Prop :=
  Padded (LooseValue text) raw ∨ Spaces raw ∧ text = none

/-- Places of values between commas, with the strings among them. -/
inductive LooseItems : List String → Bytes → Prop
  | one {text : Option String} {raw : Bytes} (h : LooseSlot text raw) :
      LooseItems text.toList raw
  | more {text : Option String} {texts : List String} {raw raws : Bytes} (h : LooseSlot text raw)
      (hrest : LooseItems texts raws) : LooseItems (text.toList ++ texts) (raw ++ comma :: raws)

def LooseArray (texts : List String) (raw : Bytes) : Prop :=
  ∃ inner, raw = lbracket :: (inner ++ [rbracket]) ∧ LooseItems texts inner

section

variable {φ : Type}

/-- Members between commas; `field` says what stands behind a colon. -/
inductive LooseMembers (field : String → φ → Bytes → Prop) : List (String × φ) → Bytes → Prop
  | one {key : String} {f : φ} {name raw : Bytes} (hkey : Padded (LooseString key) name)
      (hfield : field key f raw) : LooseMembers field [(key, f)] (name ++ colon :: raw)
  | more {key : String} {f : φ} {name raw raws : Bytes} {members : List (String × φ)}
      (hkey : Padded (LooseString key) name) (hfield : field key f raw)
      (hrest : LooseMembers field members raws) :
      LooseMembers field ((key, f) :: members) (name ++ colon :: (raw ++ comma :: raws))

def LooseObject (field : String → φ → Bytes → Prop) (members : List (String × φ))
    (raw : Bytes) : Prop :=
  ∃ inner, raw = lbrace :: (inner ++ [rbrace]) ∧
    (Spaces inner ∧ members = [] ∨ LooseMembers field members inner)

end

/-! ### Spaces -/

/-- A reader ends with a value, and with that much of its input left. -/
def Yields {α : Type} (r : Read α) (a : α) (rest : Bytes) : Prop :=
  ∃ p, r = .ok a p ∧ p.rest = rest

lemma skipSpaces_rest (pos : Nat) (rest : Bytes) :
    (skipSpaces pos rest).rest = rest.dropWhile isSpace := by
  induction rest generalizing pos with
  | nil => rfl
  | cons b rest ih =>
    rw [skipSpaces, List.dropWhile_cons]
    split_ifs
    · exact ih (pos + 1)
    · rfl

lemma Parser.skipWhitespace_rest (p : Parser) :
    p.skipWhitespace.rest = p.rest.dropWhile isSpace := skipSpaces_rest p.pos p.rest

lemma Parser.skipWhitespace_of_not_space {p : Parser} {b : UInt8} {rest : Bytes}
    (hrest : p.rest = b :: rest) (hb : isSpace b = false) : p.skipWhitespace = p := by
  rw [Parser.skipWhitespace, hrest, skipSpaces, if_neg (by simp [hb]), ← hrest]

lemma Parser.skipWhitespace_skipWhitespace (p : Parser) :
    p.skipWhitespace.skipWhitespace = p.skipWhitespace := by
  cases hrest : p.skipWhitespace.rest with
  | nil => rw [skipWhitespace, hrest, skipSpaces, ← hrest]
  | cons b rest =>
    refine skipWhitespace_of_not_space hrest ?_
    rw [p.skipWhitespace_rest] at hrest
    have hne : p.rest.dropWhile isSpace ≠ [] := by
      rw [hrest]
      exact List.cons_ne_nil _ _
    simpa [hrest] using List.head_dropWhile_not isSpace hne

lemma Spaces.dropWhile {front : Bytes} (h : Spaces front) (rest : Bytes) :
    (front ++ rest).dropWhile isSpace = rest.dropWhile isSpace := by
  induction front with
  | nil => rfl
  | cons b front ih =>
    rw [List.cons_append, List.dropWhile_cons, if_pos (h b List.mem_cons_self)]
    exact ih fun b hb => h b (List.mem_cons_of_mem _ hb)

lemma spaces_takeWhile (raw : Bytes) : Spaces (raw.takeWhile isSpace) :=
  fun _ hb => List.mem_takeWhile_imp hb

/-- Spaces in front of what is left when they are dropped. -/
lemma exists_spaces {raw rest : Bytes} (h : raw.dropWhile isSpace = rest) :
    ∃ front, raw = front ++ rest ∧ Spaces front :=
  ⟨raw.takeWhile isSpace, by rw [← h, List.takeWhile_append_dropWhile], spaces_takeWhile raw⟩

lemma dropWhile_of_not_space {b : UInt8} (h : isSpace b = false) (rest : Bytes) :
    (b :: rest).dropWhile isSpace = b :: rest := by
  rw [List.dropWhile_cons, if_neg (by simp [h])]

lemma dropWhile_dropWhile (rest : Bytes) :
    (rest.dropWhile isSpace).dropWhile isSpace = rest.dropWhile isSpace :=
  List.dropWhile_idempotent isSpace rest

/-- What is left after the spaces does not start with one. -/
lemma not_space_of_dropWhile {raw rest : Bytes} {b : UInt8}
    (h : raw.dropWhile isSpace = b :: rest) : isSpace b = false := by
  have hne : raw.dropWhile isSpace ≠ [] := by
    rw [h]
    exact List.cons_ne_nil _ _
  have hhead := List.head_dropWhile_not isSpace hne
  simpa [h] using hhead

lemma expectByte_complete {byte : UInt8} {p : Parser} {rest : Bytes}
    (h : p.rest.dropWhile isSpace = byte :: rest) : Yields (expectByte byte p) () rest := by
  have hrest : p.skipWhitespace.rest = byte :: rest := by rw [p.skipWhitespace_rest, h]
  unfold expectByte
  simp only [hrest, if_true]
  exact ⟨_, rfl, rfl⟩

lemma expectByte_sound {byte : UInt8} {p p' : Parser} (h : expectByte byte p = .ok () p') :
    p.rest.dropWhile isSpace = byte :: p'.rest := by
  unfold expectByte at h
  dsimp only at h
  split at h
  · next b rest hrest =>
    split_ifs at h with hbyte
    cases h
    rw [← p.skipWhitespace_rest, hrest, hbyte]
  · cases h

/-! ### Strings -/

lemma utf8CharWidth_le (b : UInt8) : utf8CharWidth b ≤ 4 := by
  unfold utf8CharWidth
  split_ifs <;> omega

/-- One character of a string is read whole. -/
lemma stringLoop_char {b : UInt8} {tail : Bytes} {text : String}
    (hwidth : utf8CharWidth b = tail.length + 1) (hquote : b ≠ quote) (hback : b ≠ backslash)
    (htext : fromUtf8 (b :: tail) = some text) (out : List Char) (pos : Nat) (rest : Bytes) :
    stringLoop out pos (b :: tail ++ rest) =
      stringLoop (out ++ text.toList) (pos + (tail.length + 1)) rest := by
  have hle := utf8CharWidth_le b
  rw [hwidth] at hle
  match tail, hle with
  | [], _ =>
    show stringLoop out pos (b :: rest) = _
    rw [stringLoop.eq_def]
    simp [hquote, hback, hwidth, slice, htext]
  | [_], _ =>
    show stringLoop out pos (b :: _ :: rest) = _
    rw [stringLoop.eq_def]
    simp [hquote, hback, hwidth, slice, htext]
  | [_, _], _ =>
    show stringLoop out pos (b :: _ :: _ :: rest) = _
    rw [stringLoop.eq_def]
    simp [hquote, hback, hwidth, slice, htext]
  | [_, _, _], _ =>
    show stringLoop out pos (b :: _ :: _ :: _ :: rest) = _
    rw [stringLoop.eq_def]
    simp [hquote, hback, hwidth, slice, htext]
  | _ :: _ :: _ :: _ :: _, hle => simp at hle; omega

lemma backslash_ne_quote : backslash ≠ quote := by decide

lemma stringLoop_escape {e : UInt8} {c : Char} (h : simpleEscape e = some c) (out : List Char)
    (pos : Nat) (rest : Bytes) :
    stringLoop out pos (backslash :: e :: rest) = stringLoop (out ++ [c]) (pos + 2) rest := by
  rw [stringLoop.eq_def]
  simp [backslash_ne_quote, h]

lemma stringLoop_unicode {h₁ h₂ h₃ h₄ : UInt8} {code : Nat} {c : Char}
    (hcode : hexCode h₁ h₂ h₃ h₄ = some code) (hchar : charFromU32 code = some c)
    (out : List Char) (pos : Nat) (rest : Bytes) :
    stringLoop out pos (backslash :: 0x75 :: h₁ :: h₂ :: h₃ :: h₄ :: rest) =
      stringLoop (out ++ [c]) (pos + 6) rest := by
  rw [stringLoop.eq_def]
  simp [backslash_ne_quote, show simpleEscape 0x75 = none by decide, hcode, hchar]

lemma stringLoop_unknown {e : UInt8} (hescape : simpleEscape e = none) (hunicode : e ≠ 0x75)
    (out : List Char) (pos : Nat) (rest : Bytes) :
    stringLoop out pos (backslash :: e :: rest) =
      stringLoop (out ++ [Char.ofNat e.toNat]) (pos + 2) rest := by
  rw [stringLoop.eq_def]
  simp [backslash_ne_quote, hescape, hunicode]

/-- The characters of a string are read up to its closing quote. -/
lemma stringLoop_complete {out : List Char} {chars : Bytes} (h : LooseChars out chars)
    (before : List Char) (pos : Nat) (rest : Bytes) :
    Yields (stringLoop before pos (chars ++ quote :: rest)) (String.ofList (before ++ out)) rest := by
  induction h generalizing before pos with
  | nil =>
    rw [List.nil_append, stringLoop.eq_def, List.append_nil]
    exact ⟨_, rfl, rfl⟩
  | char hwidth hquote hback htext hrest ih =>
    rw [List.append_assoc, stringLoop_char hwidth hquote hback htext, ← List.append_assoc]
    exact ih _ _
  | @escape e raw c out hescape hrest ih =>
    rw [List.cons_append, List.cons_append, stringLoop_escape hescape,
      List.append_cons before c out]
    exact ih _ _
  | @unicode h₁ h₂ h₃ h₄ raw code c out hcode hchar hrest ih =>
    simp only [List.cons_append]
    rw [stringLoop_unicode hcode hchar, List.append_cons before c out]
    exact ih _ _
  | @unknown e raw out hescape hunicode hrest ih =>
    rw [List.cons_append, List.cons_append, stringLoop_unknown hescape hunicode,
      List.append_cons before _ out]
    exact ih _ _

/-- One character in front of the characters of a string. -/
lemma looseChars_of_slice {b : UInt8} {tail rest : Bytes} {pos : Nat} {text : String} {p : Parser}
    {out : List Char} {next : List Char → Read String} (hwidth : utf8CharWidth b = tail.length + 1)
    (hquote : b ≠ quote) (hback : b ≠ backslash)
    (hnext : ∀ found, next found = .ok text p → ∃ chars more, rest = chars ++ quote :: p.rest ∧
      LooseChars more chars ∧ text = String.ofList (out ++ found ++ more))
    (h : slice pos (b :: tail) rest next = .ok text p) :
    ∃ chars more, b :: tail ++ rest = chars ++ quote :: p.rest ∧ LooseChars more chars ∧
      text = String.ofList (out ++ more) := by
  unfold slice at h
  split at h
  · next found hfound =>
    obtain ⟨chars, more, hrest, hmore, htext⟩ := hnext _ h
    refine ⟨b :: tail ++ chars, found.toList ++ more, by rw [hrest, List.append_assoc],
      .char hwidth hquote hback hfound hmore, by rw [htext, List.append_assoc]⟩
  · cases h

/-- What the string loop reads are the characters of a string. -/
lemma stringLoop_sound {before : List Char} {pos : Nat} {input : Bytes} {text : String} {p : Parser}
    (h : stringLoop before pos input = .ok text p) :
    ∃ chars out, input = chars ++ quote :: p.rest ∧ LooseChars out chars ∧
      text = String.ofList (before ++ out) := by
  fun_induction stringLoop before pos input with
  | case1 => cases h
  | case2 =>
    cases h
    exact ⟨[], [], rfl, .nil, by rw [List.append_nil]⟩
  | case3 => cases h
  | case4 before pos e rest c hescape _ ih =>
    obtain ⟨chars, out, hrest, hchars, htext⟩ := ih h
    exact ⟨backslash :: e :: chars, c :: out, by rw [hrest]; rfl, .escape hescape hchars,
      by rw [htext, List.append_cons before c out]⟩
  | case5 before pos h₁ h₂ h₃ h₄ rest code hcode c hchar _ _ ih =>
    obtain ⟨chars, out, hrest, hchars, htext⟩ := ih h
    exact ⟨backslash :: 0x75 :: h₁ :: h₂ :: h₃ :: h₄ :: chars, c :: out, by rw [hrest]; rfl,
      .unicode hcode hchar hchars, by rw [htext, List.append_cons before c out]⟩
  | case6 => cases h
  | case7 => cases h
  | case8 => cases h
  | case9 before pos e rest hescape hunicode _ ih =>
    obtain ⟨chars, out, hrest, hchars, htext⟩ := ih h
    exact ⟨backslash :: e :: chars, Char.ofNat e.toNat :: out, by rw [hrest]; rfl,
      .unknown hescape hunicode hchars, by rw [htext, List.append_cons before _ out]⟩
  | case10 before pos b hquote hback rest hwidth ih =>
    have hwidth' : utf8CharWidth b = ([] : Bytes).length + 1 := hwidth
    exact looseChars_of_slice hwidth' hquote hback (fun found => ih found) h
  | case11 before pos b hquote hback b₁ rest hwidth ih =>
    exact looseChars_of_slice hwidth hquote hback (fun found => ih found) h
  | case12 before pos b hquote hback b₁ b₂ rest hwidth ih =>
    exact looseChars_of_slice hwidth hquote hback (fun found => ih found) h
  | case13 before pos b hquote hback b₁ b₂ b₃ rest hwidth ih =>
    exact looseChars_of_slice hwidth hquote hback (fun found => ih found) h
  | case14 => cases h

lemma parseString_complete {text : String} {raw rest : Bytes} {p : Parser}
    (h : LooseString text raw) (hrest : p.rest.dropWhile isSpace = raw ++ rest) :
    Yields (parseString p) text rest := by
  obtain ⟨out, chars, rfl, hchars, rfl⟩ := h
  have hstart : p.skipWhitespace.rest = quote :: (chars ++ quote :: rest) := by
    rw [p.skipWhitespace_rest, hrest]
    simp
  unfold parseString
  simp only [hstart, if_true]
  exact stringLoop_complete hchars [] _ rest

lemma parseString_sound {text : String} {p p' : Parser} (h : parseString p = .ok text p') :
    ∃ raw, p.rest.dropWhile isSpace = raw ++ p'.rest ∧ LooseString text raw := by
  unfold parseString at h
  dsimp only at h
  split at h
  · next b rest hrest =>
    split_ifs at h with hquote
    obtain ⟨chars, out, hchars, hloose, htext⟩ := stringLoop_sound h
    refine ⟨quote :: (chars ++ [quote]), ?_, out, chars, rfl, hloose, htext⟩
    rw [← p.skipWhitespace_rest, hrest, hquote, hchars]
    simp
  · cases h

/-! ### Skipped values -/

section

variable {opening closing : UInt8} {unterminated : String}

/-- A string that starts where the parser stands. -/
lemma parseString_sound_of_quote {text : String} {p p' : Parser} {rest : Bytes}
    (hrest : p.rest = quote :: rest) (h : parseString p = .ok text p') :
    ∃ raw, p.rest = raw ++ p'.rest ∧ LooseString text raw := by
  obtain ⟨raw, hraw, hstring⟩ := parseString_sound h
  rw [hrest, dropWhile_of_not_space (by decide)] at hraw
  exact ⟨raw, by rw [hrest, hraw], hstring⟩

/-- Bytes with closed brackets are stepped past. -/
lemma skipNested_complete (hopening : opening ≠ quote) (hclosing : closing ≠ quote)
    (hne : closing ≠ opening) {raw : Bytes} (h : Balanced opening closing raw) (depth pos : Nat)
    (rest : Bytes) :
    ∃ pos', skipNested opening closing unterminated (depth + 1) ⟨pos, raw ++ rest⟩ =
      skipNested opening closing unterminated (depth + 1) ⟨pos', rest⟩ := by
  induction h generalizing depth pos rest with
  | nil => exact ⟨pos, rfl⟩
  | @byte b raw hb hb' hquote hrest ih =>
    obtain ⟨pos', hskip⟩ := ih depth (pos + 1) rest
    refine ⟨pos', ?_⟩
    rw [← hskip, List.cons_append, skipNested]
    simp only [hb, hb', hquote, if_false]
  | @string text inner raw hstring hrest ih =>
    obtain ⟨out, chars, rfl, hchars, rfl⟩ := hstring
    have hread : Yields (parseString ⟨pos, quote :: (chars ++ quote :: (raw ++ rest))⟩)
        (String.ofList out) (raw ++ rest) := by
      refine parseString_complete ⟨out, chars, rfl, hchars, rfl⟩ ?_
      rw [dropWhile_of_not_space (by decide)]
      simp
    obtain ⟨p', hp', hp'rest⟩ := hread
    obtain ⟨pos', hskip⟩ := ih depth p'.pos rest
    refine ⟨pos', ?_⟩
    have hshape : quote :: (chars ++ [quote]) ++ raw ++ rest =
        quote :: (chars ++ quote :: (raw ++ rest)) := by simp
    rw [hshape, skipNested]
    simp only [hopening.symm, hclosing.symm, if_false, if_true]
    rw [← hskip]
    split
    · next found p'' hfound =>
      rw [hp'] at hfound
      cases hfound
      rw [← hp'rest]
    · next hfound =>
      rw [hp'] at hfound
      cases hfound
  | @nested inner raw hinner hrest ihinner ih =>
    obtain ⟨pos₁, hskip₁⟩ := ihinner (depth + 1) (pos + 1) (closing :: (raw ++ rest))
    obtain ⟨pos₂, hskip₂⟩ := ih depth (pos₁ + 1) rest
    refine ⟨pos₂, ?_⟩
    have hshape : opening :: (inner ++ closing :: raw) ++ rest =
        opening :: (inner ++ closing :: (raw ++ rest)) := by simp
    rw [hshape, skipNested]
    simp only [if_true]
    rw [hskip₁, skipNested]
    simp only [hne, if_false, if_true]
    exact hskip₂

/-- Bytes that close so many brackets. -/
def Closes (opening closing : UInt8) : Nat → Bytes → Prop
  | 0, raw => raw = []
  | depth + 1, raw => ∃ inner rest, raw = inner ++ closing :: rest ∧
      Balanced opening closing inner ∧ Closes opening closing depth rest

/-- Something closed in front of bytes that close brackets. -/
lemma Closes.front {depth : Nat} {raw front : Bytes} (h : Closes opening closing (depth + 1) raw)
    (hfront : ∀ inner, Balanced opening closing inner → Balanced opening closing (front ++ inner)) :
    Closes opening closing (depth + 1) (front ++ raw) := by
  obtain ⟨inner, rest, rfl, hinner, hrest⟩ := h
  exact ⟨front ++ inner, rest, by rw [List.append_assoc], hfront inner hinner, hrest⟩

/-- What is stepped past closes the brackets that were open. -/
lemma skipNested_sound {depth : Nat} {p p' : Parser}
    (h : skipNested opening closing unterminated depth p = .ok () p') :
    ∃ raw, p.rest = raw ++ p'.rest ∧ Closes opening closing depth raw := by
  fun_induction skipNested opening closing unterminated depth p with
  | case1 =>
    cases h
    exact ⟨[], rfl, rfl⟩
  | case2 => cases h
  | case3 p depth rest hrest ih =>
    obtain ⟨raw, hraw, inner, more, rfl, hinner, inner', rest', rfl, hinner', hcloses⟩ := ih h
    refine ⟨opening :: (inner ++ closing :: (inner' ++ closing :: rest')), ?_,
      opening :: (inner ++ closing :: inner'), rest', by simp, .nested hinner hinner', hcloses⟩
    rw [hrest, show rest = _ from hraw]
    rfl
  | case4 p depth rest hrest _ ih =>
    obtain ⟨raw, hraw, hcloses⟩ := ih h
    refine ⟨closing :: raw, ?_, [], raw, rfl, .nil, hcloses⟩
    rw [hrest, show rest = _ from hraw]
    rfl
  | case5 p depth rest _ p' hstring hrest _ _ ih =>
    obtain ⟨raw, hraw, hcloses⟩ := ih h
    obtain ⟨text, htext, hloose⟩ := parseString_sound_of_quote hrest hstring
    refine ⟨text ++ raw, by rw [htext, hraw, List.append_assoc], hcloses.front fun inner hinner => ?_⟩
    exact .string hloose hinner
  | case6 => cases h
  | case7 p depth b rest hrest hopening hclosing hquote ih =>
    obtain ⟨raw, hraw, hcloses⟩ := ih h
    refine ⟨[b] ++ raw, ?_, hcloses.front fun inner hinner => ?_⟩
    · rw [hrest, show rest = _ from hraw]
      rfl
    · exact .byte hopening hclosing hquote hinner

end

/-! ### Places of values -/

lemma skipLiteral_complete {run : Bytes} (hrun : ∀ b ∈ run, isDelimiter b = false) {d : UInt8}
    (hd : isDelimiter d = true) (pos : Nat) (rest : Bytes) :
    (skipLiteral pos (run ++ d :: rest)).rest = d :: rest := by
  induction run generalizing pos with
  | nil => rw [List.nil_append, skipLiteral, if_pos hd]
  | cons b run ih =>
    rw [List.cons_append, skipLiteral, if_neg (by simp [hrun b List.mem_cons_self])]
    exact ih (fun b hb => hrun b (List.mem_cons_of_mem _ hb)) (pos + 1)

lemma skipLiteral_sound (pos : Nat) (input : Bytes) :
    ∃ run, input = run ++ (skipLiteral pos input).rest ∧ ∀ b ∈ run, isDelimiter b = false := by
  induction input generalizing pos with
  | nil => exact ⟨[], rfl, by simp⟩
  | cons b input ih =>
    rw [skipLiteral]
    split_ifs with hb
    · exact ⟨[], rfl, by simp⟩
    · obtain ⟨run, hrun, hnone⟩ := ih (pos + 1)
      refine ⟨b :: run, by rw [List.cons_append, ← hrun], fun b' hb' => ?_⟩
      rcases List.mem_cons.mp hb' with rfl | hb'
      · simpa using hb
      · exact hnone b' hb'

lemma skipNested_closed {opening closing : UInt8} (unterminated : String)
    (hopening : opening ≠ quote) (hclosing : closing ≠ quote) (hne : closing ≠ opening)
    {inner : Bytes} (h : Balanced opening closing inner) (pos : Nat) (rest : Bytes) :
    Yields (skipNested opening closing unterminated 1 ⟨pos, inner ++ closing :: rest⟩) () rest := by
  obtain ⟨pos', hskip⟩ := @skipNested_complete opening closing unterminated hopening hclosing hne
    inner h 0 pos (closing :: rest)
  rw [hskip, skipNested]
  simp only [hne, if_false, if_true]
  rw [skipNested]
  exact ⟨_, rfl, rfl⟩

/-- Where a value ends and something else stands behind the spaces that follow. -/
def Ends (r : Read Unit) (rest : Bytes) : Prop :=
  ∃ p, r = .ok () p ∧ p.rest.dropWhile isSpace = rest

/-- The bytes that may stand behind a value. -/
def IsFollow (d : UInt8) : Prop := d = comma ∨ d = rbrace ∨ d = rbracket

lemma IsFollow.isDelimiter {d : UInt8} (h : IsFollow d) : isDelimiter d = true := by
  rcases h with rfl | rfl | rfl <;> decide

lemma IsFollow.not_space {d : UInt8} (h : IsFollow d) : isSpace d = false := by
  rcases h with rfl | rfl | rfl <;> decide

lemma IsFollow.ne {d : UInt8} (h : IsFollow d) : d ≠ quote ∧ d ≠ lbracket ∧ d ≠ lbrace := by
  rcases h with rfl | rfl | rfl <;> decide

/-- A place in front of a follower is stepped past, with the spaces behind it. -/
lemma skipValue_complete {text : Option String} {raw rest : Bytes} {d : UInt8} {p : Parser}
    (h : LooseSlot text raw) (hd : IsFollow d)
    (hrest : p.rest.dropWhile isSpace = (raw ++ d :: rest).dropWhile isSpace) :
    Ends (skipValue p) (d :: rest) := by
  have hfollow : ∀ back, Spaces back →
      (back ++ d :: rest).dropWhile isSpace = d :: rest := fun back hback => by
    rw [hback.dropWhile, dropWhile_of_not_space hd.not_space]
  rcases h with ⟨front, value, back, rfl, hfront, hback, hvalue⟩ | ⟨hspaces, -⟩
  · have hskip : ∀ b more, value ++ (back ++ d :: rest) = b :: more → isSpace b = false →
        p.skipWhitespace.rest = b :: more := fun b more hmore hb => by
      rw [p.skipWhitespace_rest, hrest, List.append_assoc, List.append_assoc, hfront.dropWhile,
        hmore, dropWhile_of_not_space hb]
    unfold skipValue
    cases hvalue with
    | string hstring =>
      obtain ⟨out, chars, rfl, hchars, rfl⟩ := hstring
      have hstart := hskip quote (chars ++ [quote] ++ (back ++ d :: rest)) rfl (by decide)
      have hread : Yields (parseString p.skipWhitespace) (String.ofList out) (back ++ d :: rest) := by
        refine parseString_complete ⟨out, chars, rfl, hchars, rfl⟩ ?_
        rw [hstart, dropWhile_of_not_space (by decide)]
        rfl
      obtain ⟨p', hp', hp'rest⟩ := hread
      simp only [hstart, if_true]
      rw [hp']
      exact ⟨p', rfl, by rw [hp'rest, hfollow back hback]⟩
    | @array inner hinner =>
      have hstart := hskip lbracket (inner ++ rbracket :: (back ++ d :: rest)) (by simp) (by decide)
      simp only [hstart, if_true, show ¬ lbracket = quote by decide, if_false]
      obtain ⟨p', hp', hp'rest⟩ := skipNested_closed "unterminated array in skip" (by decide)
        (by decide) (by decide) hinner (p.skipWhitespace.pos + 1) (back ++ d :: rest)
      exact ⟨p', hp', by rw [hp'rest, hfollow back hback]⟩
    | @object inner hinner =>
      have hstart := hskip lbrace (inner ++ rbrace :: (back ++ d :: rest)) (by simp) (by decide)
      simp only [hstart, if_true, show ¬ lbrace = quote by decide, show ¬ lbrace = lbracket by decide,
        if_false]
      obtain ⟨p', hp', hp'rest⟩ := skipNested_closed "unterminated object in skip" (by decide)
        (by decide) (by decide) hinner (p.skipWhitespace.pos + 1) (back ++ d :: rest)
      exact ⟨p', hp', by rw [hp'rest, hfollow back hback]⟩
    | @literal b run hquote hbracket hbrace hrun =>
      have hb := hrun b List.mem_cons_self
      have hspace : isSpace b = false := by
        simp only [isDelimiter, Bool.or_eq_false_iff] at hb
        exact hb.2
      have hstart := hskip b (run ++ (back ++ d :: rest)) rfl hspace
      simp only [hstart, hquote, hbracket, hbrace, if_false]
      refine ⟨_, rfl, ?_⟩
      -- the run goes on to the first delimiter behind it, a space or the follower
      rw [← List.cons_append]
      cases back with
      | nil =>
        rw [List.nil_append, skipLiteral_complete hrun hd.isDelimiter,
          dropWhile_of_not_space hd.not_space]
      | cons b' back =>
        have hb' : isDelimiter b' = true := by
          simp [isDelimiter, hback b' List.mem_cons_self]
        have hshape : b' :: back ++ d :: rest = b' :: (back ++ d :: rest) := rfl
        rw [hshape, skipLiteral_complete hrun hb', ← hshape, hfollow _ hback]
  · have hstart : p.skipWhitespace.rest = d :: rest := by
      rw [p.skipWhitespace_rest, hrest, hfollow raw hspaces]
    obtain ⟨hquote, hbracket, hbrace⟩ := hd.ne
    unfold skipValue
    simp only [hstart, hquote, hbracket, hbrace, if_false]
    refine ⟨_, rfl, ?_⟩
    rw [skipLiteral, if_pos hd.isDelimiter, dropWhile_of_not_space hd.not_space]

/-- A value between the spaces that were dropped in front of it and behind it. -/
lemma slot_of_value {text : Option String} {p : Parser} {value after rest : Bytes}
    (h : LooseValue text value) (hvalue : p.rest.dropWhile isSpace = value ++ after)
    (hafter : after.dropWhile isSpace = rest) :
    ∃ raw, p.rest = raw ++ rest ∧ LooseSlot text raw := by
  obtain ⟨front, hfront, hspaces⟩ := exists_spaces hvalue
  obtain ⟨back, hback, hspaces'⟩ := exists_spaces hafter
  refine ⟨front ++ (value ++ back), ?_, Or.inl ⟨front, value, back, rfl, hspaces, hspaces', h⟩⟩
  rw [hfront, hback]
  simp

/-- What is stepped past is a place; only a string in it starts with a quote. -/
lemma skipValue_sound {p p' : Parser} {rest : Bytes} (h : skipValue p = .ok () p')
    (hrest : p'.rest.dropWhile isSpace = rest) :
    ∃ text raw, p.rest = raw ++ rest ∧ LooseSlot text raw ∧
      (text ≠ none → (p.rest.dropWhile isSpace).head? = some quote) := by
  unfold skipValue at h
  dsimp only at h
  split at h
  · cases h
  · next b more hstart =>
    have hdrop : p.rest.dropWhile isSpace = b :: more := by rw [← p.skipWhitespace_rest, hstart]
    split_ifs at h with hquote hbracket hbrace
    · subst hquote
      split at h
      · next text p'' hstring =>
        cases h
        obtain ⟨value, hvalue, hloose⟩ := parseString_sound_of_quote hstart hstring
        obtain ⟨raw, hraw, hslot⟩ :=
          slot_of_value (.string hloose) (by rw [← p.skipWhitespace_rest, hvalue]) hrest
        exact ⟨_, raw, hraw, hslot, fun _ => by rw [hdrop]; rfl⟩
      · cases h
    · obtain ⟨value, hvalue, inner, last, rfl, hinner, rfl⟩ := skipNested_sound h
      obtain ⟨raw, hraw, hslot⟩ := slot_of_value (.array hinner)
        (by rw [hdrop, hbracket, show more = _ from hvalue]; rfl) hrest
      exact ⟨_, raw, hraw, hslot, fun hsome => absurd rfl hsome⟩
    · obtain ⟨value, hvalue, inner, last, rfl, hinner, rfl⟩ := skipNested_sound h
      obtain ⟨raw, hraw, hslot⟩ := slot_of_value (.object hinner)
        (by rw [hdrop, hbrace, show more = _ from hvalue]; rfl) hrest
      exact ⟨_, raw, hraw, hslot, fun hsome => absurd rfl hsome⟩
    · cases h
      obtain ⟨run, hrun, hnone⟩ := skipLiteral_sound p.skipWhitespace.pos p.skipWhitespace.rest
      rw [p.skipWhitespace_rest, hdrop] at hrun
      cases run with
      | nil =>
        -- nothing was read: the place is empty, and what follows stands at its end
        obtain ⟨front, hfront, hspaces⟩ := exists_spaces hdrop
        rw [p.skipWhitespace_rest, hdrop, ← List.nil_append (skipLiteral _ _).rest, ← hrun,
          dropWhile_of_not_space (not_space_of_dropWhile hdrop)] at hrest
        exact ⟨none, front, by rw [← hrest, hfront], Or.inr ⟨hspaces, rfl⟩,
          fun hsome => absurd rfl hsome⟩
      | cons b' run =>
        obtain ⟨rfl, hmore⟩ := List.cons.inj hrun
        rw [p.skipWhitespace_rest, hdrop] at hrest
        obtain ⟨raw, hraw, hslot⟩ := slot_of_value (.literal hquote hbracket hbrace hnone)
          (hdrop.trans hrun) hrest
        exact ⟨_, raw, hraw, hslot, fun hsome => absurd rfl hsome⟩

/-! ### Arrays of strings -/

/-- A slot with a string in it is a padded string. -/
lemma LooseSlot.string {text : String} {raw : Bytes} (h : LooseSlot (some text) raw) :
    Padded (LooseString text) raw := by
  rcases h with ⟨front, value, back, rfl, hfront, hback, hvalue⟩ | ⟨-, hnone⟩
  · cases hvalue with
    | string hstring => exact ⟨front, value, back, rfl, hfront, hback, hstring⟩
  · cases hnone

lemma parseString_padded {text : String} {raw rest : Bytes} {d : UInt8} {p : Parser}
    (h : Padded (LooseString text) raw) (hd : isSpace d = false)
    (hrest : p.rest.dropWhile isSpace = (raw ++ d :: rest).dropWhile isSpace) :
    ∃ p', parseString p = .ok text p' ∧ p'.rest.dropWhile isSpace = d :: rest := by
  obtain ⟨front, value, back, rfl, hfront, hback, hstring⟩ := h
  have hstart : p.rest.dropWhile isSpace = value ++ (back ++ d :: rest) := by
    rw [hrest, List.append_assoc, List.append_assoc, hfront.dropWhile]
    obtain ⟨out, chars, rfl, -, -⟩ := hstring
    exact dropWhile_of_not_space (by decide) _
  obtain ⟨p', hp', hp'rest⟩ := parseString_complete hstring hstart
  exact ⟨p', hp', by rw [hp'rest, hback.dropWhile, dropWhile_of_not_space hd]⟩

/-- A slot without a string does not start with a quote. -/
lemma LooseSlot.head_ne_quote {raw rest : Bytes} {d : UInt8} (h : LooseSlot none raw)
    (hd : IsFollow d) : ((raw ++ d :: rest).dropWhile isSpace).head? ≠ some quote := by
  rcases h with ⟨front, value, back, rfl, hfront, hback, hvalue⟩ | ⟨hspaces, -⟩
  · rw [List.append_assoc, List.append_assoc, hfront.dropWhile]
    cases hvalue with
    | array =>
      rw [List.cons_append, dropWhile_of_not_space (by decide)]
      exact fun h => absurd (Option.some.inj h) (by decide)
    | object =>
      rw [List.cons_append, dropWhile_of_not_space (by decide)]
      exact fun h => absurd (Option.some.inj h) (by decide)
    | @literal b run hquote _ _ hrun =>
      have hb := hrun b List.mem_cons_self
      simp only [isDelimiter, Bool.or_eq_false_iff] at hb
      simp [dropWhile_of_not_space hb.2, hquote]
  · rw [hspaces.dropWhile, dropWhile_of_not_space hd.not_space]
    simp [hd.ne.1]

/-- One item in front of a follower. -/
lemma arrayItem_complete {text : Option String} {raw rest : Bytes} {d : UInt8} {p : Parser}
    (items : List String) (h : LooseSlot text raw) (hd : IsFollow d)
    (hrest : p.rest = raw ++ d :: rest) :
    ∃ p', arrayItem items p.skipWhitespace = .ok (items ++ text.toList) p' ∧
      p'.rest.dropWhile isSpace = d :: rest := by
  unfold arrayItem
  rw [p.skipWhitespace_rest]
  cases text with
  | some text =>
    obtain ⟨p', hp', hp'rest⟩ := @parseString_padded text raw rest d p.skipWhitespace h.string
      hd.not_space (by rw [p.skipWhitespace_rest, dropWhile_dropWhile, hrest])
    have hhead : (p.rest.dropWhile isSpace).head? = some quote := by
      obtain ⟨front, value, back, rfl, hfront, -, out, chars, rfl, -, -⟩ := h.string
      rw [hrest, List.append_assoc, List.append_assoc, hfront.dropWhile]
      rfl
    rw [if_pos hhead, hp']
    exact ⟨p', rfl, hp'rest⟩
  | none =>
    have hskip : Ends (skipValue p.skipWhitespace) (d :: rest) :=
      skipValue_complete h hd (by rw [p.skipWhitespace_rest, dropWhile_dropWhile, hrest])
    obtain ⟨p', hp', hp'rest⟩ := hskip
    rw [hrest, if_neg (h.head_ne_quote hd), hp']
    exact ⟨p', by rw [Option.toList_none, List.append_nil], hp'rest⟩

lemma arrayItem_sound {items items' : List String} {rest : Bytes} {p p' : Parser}
    (h : arrayItem items p.skipWhitespace = .ok items' p')
    (hrest : p'.rest.dropWhile isSpace = rest) :
    ∃ text raw, p.rest = raw ++ rest ∧ LooseSlot text raw ∧ items' = items ++ text.toList := by
  unfold arrayItem at h
  rw [p.skipWhitespace_rest] at h
  split_ifs at h with hhead
  · split at h
    · next text p'' hstring =>
      cases h
      obtain ⟨value, hvalue, hloose⟩ := parseString_sound hstring
      rw [p.skipWhitespace_rest, dropWhile_dropWhile] at hvalue
      obtain ⟨raw, hraw, hslot⟩ := slot_of_value (.string hloose) hvalue hrest
      exact ⟨some text, raw, hraw, hslot, rfl⟩
    · cases h
  · split at h
    · next p'' hskip =>
      cases h
      obtain ⟨text, raw, hraw, hslot, hquote⟩ := skipValue_sound hskip hrest
      rw [p.skipWhitespace_rest, dropWhile_dropWhile] at hquote
      obtain rfl : text = none := by
        by_contra hsome
        exact hhead (hquote hsome)
      rw [p.skipWhitespace_rest] at hraw
      obtain ⟨front, hfront, hspaces⟩ := exists_spaces hraw
      refine ⟨none, front ++ raw, by rw [hfront, List.append_assoc], ?_, by simp⟩
      rcases hslot with ⟨front', value, back, rfl, hfront', hback, hvalue⟩ | ⟨hraw', -⟩
      · refine Or.inl ⟨front ++ front', value, back, by rw [List.append_assoc], ?_, hback, hvalue⟩
        exact fun b hb => (List.mem_append.mp hb).elim (hspaces b) (hfront' b)
      · exact Or.inr ⟨fun b hb => (List.mem_append.mp hb).elim (hspaces b) (hraw' b), rfl⟩
    · cases h

lemma arrayLoop_eq {items items' : List String} {p p' : Parser} {b : UInt8} {rest : Bytes}
    (hitem : arrayItem items p.skipWhitespace = .ok items' p')
    (hrest : p'.rest.dropWhile isSpace = b :: rest) :
    arrayLoop items p =
      if b = comma then arrayLoop items' ⟨p'.skipWhitespace.pos + 1, rest⟩
      else if b = rbracket then .ok items' ⟨p'.skipWhitespace.pos + 1, rest⟩
      else
        .error ("expected ',' or ']' at position " ++ toString p'.skipWhitespace.pos
          ++ ", found '" ++ byteText b ++ "'") p'.skipWhitespace := by
  rw [← p'.skipWhitespace_rest] at hrest
  rw [arrayLoop]
  split
  · next h =>
    rw [hitem] at h
    cases h
  · next h =>
    rw [hitem] at h
    cases h
    split
    · next hnil =>
      rw [hrest] at hnil
      cases hnil
    · next hcons =>
      rw [hrest] at hcons
      cases hcons
      rfl

/-- The items of an array are read up to its closing bracket. -/
lemma arrayLoop_complete {texts : List String} {raw : Bytes} (h : LooseItems texts raw)
    (items : List String) (p : Parser) (rest : Bytes) (hrest : p.rest = raw ++ rbracket :: rest) :
    Yields (arrayLoop items p) (items ++ texts) rest := by
  induction h generalizing items p with
  | one hslot =>
    obtain ⟨p', hp', hp'rest⟩ := arrayItem_complete items hslot (Or.inr (Or.inr rfl)) hrest
    rw [arrayLoop_eq hp' hp'rest, if_neg (by decide), if_pos rfl]
    exact ⟨_, rfl, rfl⟩
  | more hslot hitems ih =>
    rw [List.append_assoc, List.cons_append] at hrest
    obtain ⟨p', hp', hp'rest⟩ := arrayItem_complete items hslot (Or.inl rfl) hrest
    rw [arrayLoop_eq hp' hp'rest, if_pos rfl, ← List.append_assoc]
    exact ih _ _ rfl

lemma arrayLoop_sound {items texts : List String} {p p' : Parser}
    (h : arrayLoop items p = .ok texts p') :
    ∃ more raw, p.rest = raw ++ rbracket :: p'.rest ∧ LooseItems more raw ∧ texts = items ++ more := by
  fun_induction arrayLoop items p with
  | case1 => cases h
  | case2 => cases h
  | case3 items p items' p' hitem rest hrest ih =>
    obtain ⟨text, raw, hraw, hslot, rfl⟩ := arrayItem_sound hitem (by rw [← p'.skipWhitespace_rest, hrest])
    obtain ⟨more, raws, hraws, hitems, rfl⟩ := ih h
    exact ⟨text.toList ++ more, raw ++ comma :: raws,
      by rw [hraw, show rest = _ from hraws]; simp, .more hslot hitems, List.append_assoc _ _ _⟩
  | case4 items p items' p' hitem rest hrest =>
    cases h
    obtain ⟨text, raw, hraw, hslot, rfl⟩ := arrayItem_sound hitem (by rw [← p'.skipWhitespace_rest, hrest])
    exact ⟨text.toList, raw, hraw, .one hslot, rfl⟩
  | case5 => cases h

/-- The early end of an empty array is where the loop ends as well. -/
lemma parseStringArray_eq {p p' : Parser} (h : expectByte lbracket p = .ok () p') :
    parseStringArray p = arrayLoop [] p' := by
  have hspaces := p'.skipWhitespace_skipWhitespace
  unfold parseStringArray
  simp only [h]
  split_ifs with hhead
  · obtain ⟨rest, hrest⟩ := List.head?_eq_some_iff.mp hhead
    have hitem : arrayItem [] p'.skipWhitespace = .ok [] p'.skipWhitespace := by
      rw [arrayItem, if_neg (by rw [hhead]; decide), skipValue]
      simp only [hspaces, hrest, show ¬ rbracket = quote by decide,
        show ¬ rbracket = lbracket by decide, show ¬ rbracket = lbrace by decide, if_false]
      rw [skipLiteral, if_pos (by decide), ← hrest]
    rw [arrayLoop_eq hitem (by rw [hrest]; exact dropWhile_of_not_space (by decide) _),
      if_neg (by decide), if_pos rfl, hspaces, hrest, List.tail_cons]
  · rw [arrayLoop.eq_def, hspaces, ← arrayLoop.eq_def]

lemma parseStringArray_complete {texts : List String} {raw rest : Bytes} {p : Parser}
    (h : LooseArray texts raw) (hrest : p.rest.dropWhile isSpace = raw ++ rest) :
    Yields (parseStringArray p) texts rest := by
  obtain ⟨inner, rfl, hitems⟩ := h
  rw [List.cons_append, List.append_assoc, List.singleton_append] at hrest
  obtain ⟨p', hp', hp'rest⟩ := expectByte_complete hrest
  rw [parseStringArray_eq hp']
  exact arrayLoop_complete hitems [] p' rest hp'rest

lemma parseStringArray_sound {texts : List String} {p p' : Parser}
    (h : parseStringArray p = .ok texts p') :
    ∃ raw, p.rest.dropWhile isSpace = raw ++ p'.rest ∧ LooseArray texts raw := by
  cases hbyte : expectByte lbracket p with
  | error e p'' =>
    unfold parseStringArray at h
    rw [hbyte] at h
    cases h
  | ok _ p'' =>
    rw [parseStringArray_eq hbyte] at h
    obtain ⟨more, inner, hinner, hitems, rfl⟩ := arrayLoop_sound h
    refine ⟨lbracket :: (inner ++ [rbracket]), ?_, inner, rfl, hitems⟩
    rw [expectByte_sound hbyte, hinner]
    simp

/-! ### Objects -/

/-- What a field reader takes behind a colon, and what it makes of it. -/
structure FieldReader.Spec {σ φ : Type} (fields : FieldReader σ)
    (field : String → φ → Bytes → Prop) (apply : σ → String × φ → σ) : Prop where
  complete : ∀ {key f raw rest d s p}, field key f raw → d = comma ∨ d = rbrace →
    p.rest = raw ++ d :: rest → ∃ p', fields.read key s p = (apply s (key, f), .ok () p') ∧
      p'.rest.dropWhile isSpace = d :: rest
  sound : ∀ {key rest d s s' p p'}, fields.read key s p = (s', .ok () p') →
    d = comma ∨ d = rbrace → p'.rest.dropWhile isSpace = d :: rest →
      ∃ f raw, field key f raw ∧ p.rest = raw ++ d :: rest ∧ s' = apply s (key, f)

lemma parseKey_complete {key : String} {raw rest : Bytes} {p : Parser}
    (h : Padded (LooseString key) raw)
    (hrest : p.rest.dropWhile isSpace = (raw ++ colon :: rest).dropWhile isSpace) :
    Yields (parseKey p) key rest := by
  obtain ⟨p', hp', hp'rest⟩ := @parseString_padded key raw rest colon p.skipWhitespace h (by decide)
    (by rw [p.skipWhitespace_rest, dropWhile_dropWhile, hrest])
  obtain ⟨p'', hp'', hp''rest⟩ := @expectByte_complete colon p'.skipWhitespace rest
    (by rw [p'.skipWhitespace_rest, dropWhile_dropWhile, hp'rest])
  unfold parseKey
  simp only [hp', hp'']
  exact ⟨p'', rfl, hp''rest⟩

lemma parseKey_sound {key : String} {p p' : Parser} (h : parseKey p = .ok key p') :
    ∃ raw, p.rest = raw ++ colon :: p'.rest ∧ Padded (LooseString key) raw := by
  unfold parseKey at h
  split at h
  · cases h
  · next key' q hstring =>
    split at h
    · cases h
    · next q' hbyte =>
      cases h
      obtain ⟨value, hvalue, hloose⟩ := parseString_sound hstring
      have hcolon := expectByte_sound hbyte
      rw [q.skipWhitespace_rest, dropWhile_dropWhile] at hcolon
      rw [p.skipWhitespace_rest, dropWhile_dropWhile] at hvalue
      obtain ⟨front, hfront, hspaces⟩ := exists_spaces hvalue
      obtain ⟨back, hback, hspaces'⟩ := exists_spaces hcolon
      refine ⟨front ++ (value ++ back), ?_, front, value, back, rfl, hspaces, hspaces', hloose⟩
      rw [hfront, hback]
      simp

section

variable {σ φ : Type} {fields : FieldReader σ} {field : String → φ → Bytes → Prop}
  {apply : σ → String × φ → σ}

lemma memberLoop_eq {s s' : σ} {p p' p'' : Parser} {key : String} {b : UInt8} {rest : Bytes}
    (hkey : parseKey p = .ok key p') (hfield : fields.read key s p' = (s', .ok () p''))
    (hrest : p''.rest.dropWhile isSpace = b :: rest) :
    memberLoop fields s p =
      if b = comma then memberLoop fields s' ⟨p''.skipWhitespace.pos + 1, rest⟩
      else if b = rbrace then (s', .ok () ⟨p''.skipWhitespace.pos + 1, rest⟩)
      else
        (s', .error ("expected ',' or '\x7d' at position " ++ toString p''.skipWhitespace.pos
          ++ ", found '" ++ byteText b ++ "'") p''.skipWhitespace) := by
  rw [← p''.skipWhitespace_rest] at hrest
  rw [memberLoop]
  split
  · next h =>
    rw [hkey] at h
    cases h
  · next h =>
    rw [hkey] at h
    cases h
    split
    · next h =>
      rw [hfield] at h
      cases h
    · next h =>
      rw [hfield] at h
      cases h
      split
      · next hnil =>
        rw [hrest] at hnil
        cases hnil
      · next hcons =>
        rw [hrest] at hcons
        cases hcons
        rfl

/-- The members of an object are read up to its closing brace. -/
lemma memberLoop_complete (hspec : fields.Spec field apply) {members : List (String × φ)}
    {raw : Bytes} (h : LooseMembers field members raw) (s : σ) (p : Parser) (rest : Bytes)
    (hrest : p.rest.dropWhile isSpace = (raw ++ rbrace :: rest).dropWhile isSpace) :
    ∃ p', memberLoop fields s p = (members.foldl apply s, .ok () p') ∧ p'.rest = rest := by
  induction h generalizing s p with
  | one hkey hfield =>
    rw [List.append_assoc, List.cons_append] at hrest
    obtain ⟨p', hp', hp'rest⟩ := parseKey_complete hkey hrest
    obtain ⟨p'', hp'', hp''rest⟩ := hspec.complete hfield (Or.inr rfl) hp'rest
    rw [memberLoop_eq hp' hp'' hp''rest, if_neg (by decide), if_pos rfl]
    exact ⟨_, rfl, rfl⟩
  | more hkey hfield hmembers ih =>
    rw [List.append_assoc, List.cons_append, List.append_assoc, List.cons_append] at hrest
    obtain ⟨p', hp', hp'rest⟩ := parseKey_complete hkey hrest
    obtain ⟨p'', hp'', hp''rest⟩ := hspec.complete hfield (Or.inl rfl) hp'rest
    rw [memberLoop_eq hp' hp'' hp''rest, if_pos rfl]
    exact ih _ _ rfl

lemma memberLoop_sound (hspec : fields.Spec field apply) {s s' : σ} {p p' : Parser}
    (h : memberLoop fields s p = (s', .ok () p')) :
    ∃ members raw, p.rest = raw ++ rbrace :: p'.rest ∧ LooseMembers field members raw ∧
      s' = members.foldl apply s := by
  fun_induction memberLoop fields s p with
  | case1 => cases h
  | case2 => cases h
  | case3 => cases h
  | case4 s p key q hkey s₁ q' hfield rest hrest ih =>
    obtain ⟨name, hname, hpadded⟩ := parseKey_sound hkey
    obtain ⟨f, raw, hf, hraw, rfl⟩ :=
      hspec.sound hfield (Or.inl rfl) (by rw [← q'.skipWhitespace_rest, hrest])
    obtain ⟨members, raws, hraws, hmembers, rfl⟩ := ih h
    refine ⟨(key, f) :: members, name ++ colon :: (raw ++ comma :: raws), ?_,
      .more hpadded hf hmembers, rfl⟩
    rw [hname, hraw, show rest = _ from hraws]
    simp
  | case5 s p key q hkey s₁ q' hfield rest hrest =>
    cases h
    obtain ⟨name, hname, hpadded⟩ := parseKey_sound hkey
    obtain ⟨f, raw, hf, hraw, rfl⟩ :=
      hspec.sound hfield (Or.inr rfl) (by rw [← q'.skipWhitespace_rest, hrest])
    refine ⟨[(key, f)], name ++ colon :: raw, ?_, .one hpadded hf, rfl⟩
    rw [hname, hraw]
    simp
  | case6 => cases h

lemma Padded.front {inner : Bytes → Prop} {front raw : Bytes} (h : Padded inner raw)
    (hfront : Spaces front) : Padded inner (front ++ raw) := by
  obtain ⟨front', value, back, rfl, hfront', hback, hvalue⟩ := h
  refine ⟨front ++ front', value, back, by rw [List.append_assoc], ?_, hback, hvalue⟩
  exact fun b hb => (List.mem_append.mp hb).elim (hfront b) (hfront' b)

/-- Spaces in front of the first key belong to it. -/
lemma LooseMembers.front {members : List (String × φ)} {front raw : Bytes}
    (h : LooseMembers field members raw) (hfront : Spaces front) :
    LooseMembers field members (front ++ raw) := by
  cases h with
  | one hkey hfield =>
    rw [← List.append_assoc]
    exact .one (hkey.front hfront) hfield
  | more hkey hfield hrest =>
    rw [← List.append_assoc]
    exact .more (hkey.front hfront) hfield hrest

/-- Members start with a key. -/
lemma LooseMembers.head_quote {members : List (String × φ)} {raw : Bytes}
    (h : LooseMembers field members raw) (rest : Bytes) :
    ((raw ++ rest).dropWhile isSpace).head? = some quote := by
  have hname : ∀ {key : String} {name more : Bytes}, Padded (LooseString key) name →
      ((name ++ more).dropWhile isSpace).head? = some quote := by
    rintro key name more ⟨front, value, back, rfl, hfront, -, out, chars, rfl, -, -⟩
    rw [List.append_assoc, List.append_assoc, hfront.dropWhile]
    rfl
  cases h with
  | one hkey =>
    rw [List.append_assoc]
    exact hname hkey
  | more hkey =>
    rw [List.append_assoc]
    exact hname hkey

/-- **What the grammar derives of an object is read**, member by member. -/
theorem parseObject_complete (hspec : fields.Spec field apply) {members : List (String × φ)}
    {raw rest : Bytes} (h : LooseObject field members raw) (s : σ) {p : Parser}
    (hrest : p.rest.dropWhile isSpace = raw ++ rest) :
    ∃ p', parseObject fields s p = (members.foldl apply s, .ok () p') ∧ p'.rest = rest := by
  obtain ⟨inner, rfl, hinner⟩ := h
  rw [List.cons_append, List.append_assoc, List.singleton_append] at hrest
  obtain ⟨p', hp', hp'rest⟩ := expectByte_complete hrest
  unfold parseObject
  simp only [hp', p'.skipWhitespace_rest, hp'rest]
  rcases hinner with ⟨hspaces, rfl⟩ | hmembers
  · rw [hspaces.dropWhile, dropWhile_of_not_space (by decide), List.head?_cons, if_pos rfl]
    exact ⟨_, rfl, rfl⟩
  · rw [hmembers.head_quote, if_neg (by decide)]
    refine memberLoop_complete hspec hmembers s _ rest ?_
    rw [p'.skipWhitespace_rest, dropWhile_dropWhile, hp'rest]

/-- **What is read as an object the grammar derives.** -/
theorem parseObject_sound (hspec : fields.Spec field apply) {s s' : σ} {p p' : Parser}
    (h : parseObject fields s p = (s', .ok () p')) :
    ∃ members raw, p.rest.dropWhile isSpace = raw ++ p'.rest ∧ LooseObject field members raw ∧
      s' = members.foldl apply s := by
  unfold parseObject at h
  split at h
  · cases h
  · next q hbyte =>
    have hbrace := expectByte_sound hbyte
    split_ifs at h with hhead
    · cases h
      obtain ⟨rest, hrest⟩ := List.head?_eq_some_iff.mp hhead
      rw [q.skipWhitespace_rest] at hrest
      obtain ⟨front, hfront, hspaces⟩ := exists_spaces hrest
      refine ⟨[], lbrace :: (front ++ [rbrace]), ?_, ⟨front, rfl, Or.inl ⟨hspaces, rfl⟩⟩, rfl⟩
      rw [hbrace, q.skipWhitespace_rest, hrest, hfront]
      simp
    · obtain ⟨members, raw, hraw, hmembers, rfl⟩ := memberLoop_sound hspec h
      rw [q.skipWhitespace_rest] at hraw
      obtain ⟨front, hfront, hspaces⟩ := exists_spaces hraw
      refine ⟨members, lbrace :: (front ++ raw ++ [rbrace]), ?_, ⟨front ++ raw, rfl,
        Or.inr (hmembers.front hspaces)⟩, rfl⟩
      rw [hbrace, hfront]
      simp

end

/-! ### The fields of a manifest -/

lemma valueKind_append {d : UInt8} (hd : d = comma ∨ d = rbrace) (raw rest : Bytes) :
    valueKind (raw ++ d :: rest) = valueKind raw := by
  induction raw with
  | nil => rcases hd with rfl | rfl <;> rfl
  | cons b raw ih =>
    rw [List.cons_append, valueKind, valueKind, ih]

lemma valueKind_spaces {front : Bytes} (h : Spaces front) (rest : Bytes) :
    valueKind (front ++ rest) = valueKind rest := by
  induction front with
  | nil => rfl
  | cons b front ih =>
    rw [List.cons_append, valueKind, if_pos (h b List.mem_cons_self)]
    exact ih fun b hb => h b (List.mem_cons_of_mem _ hb)

lemma valueKind_array {texts : List String} {raw : Bytes} (h : Padded (LooseArray texts) raw) :
    valueKind raw = .array := by
  obtain ⟨front, value, back, rfl, hfront, -, inner, rfl, -⟩ := h
  rw [valueKind_spaces hfront]
  rfl

lemma IsFollow.of_member {d : UInt8} (h : d = comma ∨ d = rbrace) : IsFollow d :=
  h.elim Or.inl fun h => Or.inr (Or.inl h)

/-- What stands behind a key of the `pi` object. -/
inductive PiField where
  | paths (texts : List String)
  | passed (kind : ValueKind)

def PiField.Slot (key : String) (f : PiField) (raw : Bytes) : Prop :=
  match f with
  | .paths texts => (key = "skills" ∨ key = "prompts") ∧ Padded (LooseArray texts) raw
  | .passed kind => ¬(key = "skills" ∨ key = "prompts") ∧ (∃ text, LooseSlot text raw) ∧
      kind = valueKind raw

def PiField.apply (s : Parse) (member : String × PiField) : Parse :=
  match member.2 with
  | .paths texts =>
    if member.1 = "skills" then s.setSkillPaths texts else s.setPromptPaths texts
  | .passed kind => s.warn (.unknownSurface member.1 kind)

/-- What stands behind a key of the manifest. -/
inductive TopField where
  | text (value : String)
  | pi (members : List (String × PiField))
  | entries (texts : List String)
  | passed

def isTextKey (key : String) : Prop := key = "name" ∨ key = "version" ∨ key = "description"

def TopField.Slot (key : String) (f : TopField) (raw : Bytes) : Prop :=
  match f with
  | .text value => isTextKey key ∧ Padded (LooseString value) raw
  | .pi members => key = "pi" ∧ Padded (LooseObject PiField.Slot members) raw
  | .entries texts => key = "extensions" ∧ Padded (LooseArray texts) raw
  | .passed => ¬isTextKey key ∧ key ≠ "pi" ∧ (∃ text, LooseSlot text raw) ∧
      (key = "extensions" → valueKind raw ≠ .array)

def TopField.apply (s : Parse) (member : String × TopField) : Parse :=
  match member.2 with
  | .text value =>
    if member.1 = "name" then s.setName value
    else if member.1 = "version" then s.setVersion value
    else s.setDescription value
  | .pi members => members.foldl PiField.apply s
  | .entries texts => s.setExtensionPaths texts
  | .passed =>
    if member.1 = "extensions" then s.warn (.unsupportedSurface "extensions" 0) else s

section

variable {s s' : Parse} {raw rest : Bytes} {d : UInt8} {p p' : Parser}

lemma readPaths_complete {texts : List String} (set : List String → Parse → Parse)
    (h : Padded (LooseArray texts) raw) (hd : isSpace d = false) (hrest : p.rest = raw ++ d :: rest) :
    ∃ p', readPaths set s p = (set texts s, .ok () p') ∧ p'.rest.dropWhile isSpace = d :: rest := by
  obtain ⟨front, value, back, rfl, hfront, hback, harray⟩ := h
  have hstart : p.rest.dropWhile isSpace = value ++ (back ++ d :: rest) := by
    rw [hrest, List.append_assoc, List.append_assoc, hfront.dropWhile]
    obtain ⟨inner, rfl, -⟩ := harray
    exact dropWhile_of_not_space (by decide) _
  obtain ⟨p', hp', hp'rest⟩ := parseStringArray_complete harray hstart
  unfold readPaths
  rw [hp']
  exact ⟨p', rfl, by rw [hp'rest, hback.dropWhile, dropWhile_of_not_space hd]⟩

lemma readPaths_sound {set : List String → Parse → Parse} (h : readPaths set s p = (s', .ok () p'))
    (hrest : p'.rest.dropWhile isSpace = rest) :
    ∃ texts raw, Padded (LooseArray texts) raw ∧ p.rest = raw ++ rest ∧ s' = set texts s := by
  unfold readPaths at h
  split at h
  · next texts q harray =>
    cases h
    obtain ⟨value, hvalue, hloose⟩ := parseStringArray_sound harray
    obtain ⟨front, hfront, hspaces⟩ := exists_spaces hvalue
    obtain ⟨back, hback, hspaces'⟩ := exists_spaces hrest
    refine ⟨texts, front ++ (value ++ back), ⟨front, value, back, rfl, hspaces, hspaces', hloose⟩,
      ?_, rfl⟩
    rw [hfront, hback]
    simp
  · cases h

lemma readText_complete {text : String} (set : String → Parse → Parse)
    (h : Padded (LooseString text) raw) (hd : isSpace d = false) (hrest : p.rest = raw ++ d :: rest) :
    ∃ p', readText set s p = (set text s, .ok () p') ∧ p'.rest.dropWhile isSpace = d :: rest := by
  obtain ⟨p', hp', hp'rest⟩ := parseString_padded h hd (congrArg (List.dropWhile isSpace) hrest)
  unfold readText
  rw [hp']
  exact ⟨p', rfl, hp'rest⟩

lemma readText_sound {set : String → Parse → Parse} (h : readText set s p = (s', .ok () p'))
    (hrest : p'.rest.dropWhile isSpace = rest) :
    ∃ text raw, Padded (LooseString text) raw ∧ p.rest = raw ++ rest ∧ s' = set text s := by
  unfold readText at h
  split at h
  · next text q hstring =>
    cases h
    obtain ⟨value, hvalue, hloose⟩ := parseString_sound hstring
    obtain ⟨front, hfront, hspaces⟩ := exists_spaces hvalue
    obtain ⟨back, hback, hspaces'⟩ := exists_spaces hrest
    refine ⟨text, front ++ (value ++ back), ⟨front, value, back, rfl, hspaces, hspaces', hloose⟩,
      ?_, rfl⟩
    rw [hfront, hback]
    simp
  · cases h

end

theorem piFields_spec : piFields.Spec PiField.Slot PiField.apply where
  complete {key f raw rest d s p} h hd hrest := by
    have hfollow := IsFollow.of_member hd
    cases f with
    | paths texts =>
      obtain ⟨hkey, harray⟩ := h
      have hread := fun set => @readPaths_complete s raw rest d p texts set harray hfollow.not_space hrest
      rcases hkey with rfl | rfl
      · exact hread Parse.setSkillPaths
      · exact hread Parse.setPromptPaths
    | passed kind =>
      obtain ⟨hkey, ⟨text, hslot⟩, rfl⟩ := h
      obtain ⟨p', hp', hp'rest⟩ := skipValue_complete hslot hfollow (congrArg (List.dropWhile isSpace) hrest)
      obtain ⟨hskills, hprompts⟩ := not_or.mp hkey
      refine ⟨p', ?_, hp'rest⟩
      show (if key = "skills" then _ else _) = _
      rw [if_neg hskills, if_neg hprompts, passValue, hp', hrest, valueKind_append hd]
      rfl
  sound {key rest d s s' p p'} h hd hrest := by
    change (if key = "skills" then _ else if key = "prompts" then _ else _) = _ at h
    split_ifs at h with hskills hprompts
    · obtain ⟨texts, raw, harray, hraw, rfl⟩ := readPaths_sound h hrest
      refine ⟨.paths texts, raw, ⟨Or.inl hskills, harray⟩, hraw, ?_⟩
      exact (if_pos hskills).symm
    · obtain ⟨texts, raw, harray, hraw, rfl⟩ := readPaths_sound h hrest
      refine ⟨.paths texts, raw, ⟨Or.inr hprompts, harray⟩, hraw, ?_⟩
      exact (if_neg hskills).symm
    · obtain ⟨hs, hskip⟩ := Prod.mk.inj h
      obtain ⟨text, raw, hraw, hslot, -⟩ := skipValue_sound hskip hrest
      refine ⟨.passed (valueKind raw), raw, ⟨not_or.mpr ⟨hskills, hprompts⟩, ⟨text, hslot⟩, rfl⟩, hraw, ?_⟩
      rw [← hs, hraw, valueKind_append hd]
      rfl

theorem topFields_spec : topFields.Spec TopField.Slot TopField.apply where
  complete {key f raw rest d s p} h hd hrest := by
    have hfollow := IsFollow.of_member hd
    cases f with
    | text value =>
      obtain ⟨hkey, hstring⟩ := h
      have hread := fun set => @readText_complete s raw rest d p value set hstring hfollow.not_space hrest
      rcases hkey with rfl | rfl | rfl
      · exact hread Parse.setName
      · exact hread Parse.setVersion
      · exact hread Parse.setDescription
    | pi members =>
      obtain ⟨rfl, front, value, back, rfl, hfront, hback, hobject⟩ := h
      have hstart : p.rest.dropWhile isSpace = value ++ (back ++ d :: rest) := by
        rw [hrest, List.append_assoc, List.append_assoc, hfront.dropWhile]
        obtain ⟨inner, rfl, -⟩ := hobject
        exact dropWhile_of_not_space (by decide) _
      obtain ⟨p', hp', hp'rest⟩ := parseObject_complete piFields_spec hobject s hstart
      exact ⟨p', hp', by rw [hp'rest, hback.dropWhile, dropWhile_of_not_space hfollow.not_space]⟩
    | entries texts =>
      obtain ⟨rfl, harray⟩ := h
      obtain ⟨p', hp', hp'rest⟩ :=
        @readPaths_complete s raw rest d p texts Parse.setExtensionPaths harray hfollow.not_space hrest
      have hkind : valueKind p.rest = .array := by
        rw [hrest, valueKind_append hd]
        exact valueKind_array harray
      refine ⟨p', ?_, hp'rest⟩
      show readExtensions s p = _
      rw [readExtensions, if_pos hkind, hp']
      rfl
    | passed =>
      obtain ⟨htext, hpi, ⟨text, hslot⟩, hkind⟩ := h
      obtain ⟨p', hp', hp'rest⟩ := skipValue_complete hslot hfollow (congrArg (List.dropWhile isSpace) hrest)
      simp only [isTextKey, not_or] at htext
      refine ⟨p', ?_, hp'rest⟩
      show (if key = "name" then _ else _) = _
      rw [if_neg htext.1, if_neg htext.2.1, if_neg htext.2.2, if_neg hpi, TopField.apply]
      by_cases hextensions : key = "extensions"
      · rw [if_pos hextensions, if_pos hextensions, readExtensions, hrest, valueKind_append hd,
          if_neg (hkind hextensions), hp']
      · rw [if_neg hextensions, if_neg hextensions, passValue, hp']
  sound {key rest d s s' p p'} h hd hrest := by
    change (if key = "name" then _ else if key = "version" then _ else if key = "description" then _
      else if key = "pi" then _ else if key = "extensions" then _ else _) = _ at h
    split_ifs at h with hname hversion hdescription hpi hextensions
    · obtain ⟨value, raw, hstring, hraw, rfl⟩ := readText_sound h hrest
      exact ⟨.text value, raw, ⟨Or.inl hname, hstring⟩, hraw, (if_pos hname).symm⟩
    · obtain ⟨value, raw, hstring, hraw, rfl⟩ := readText_sound h hrest
      refine ⟨.text value, raw, ⟨Or.inr (Or.inl hversion), hstring⟩, hraw, ?_⟩
      exact ((if_neg hname).trans (if_pos hversion)).symm
    · obtain ⟨value, raw, hstring, hraw, rfl⟩ := readText_sound h hrest
      refine ⟨.text value, raw, ⟨Or.inr (Or.inr hdescription), hstring⟩, hraw, ?_⟩
      exact ((if_neg hname).trans (if_neg hversion)).symm
    · obtain ⟨members, value, hvalue, hobject, rfl⟩ := parseObject_sound piFields_spec h
      obtain ⟨front, hfront, hspaces⟩ := exists_spaces hvalue
      obtain ⟨back, hback, hspaces'⟩ := exists_spaces hrest
      refine ⟨.pi members, front ++ (value ++ back),
        ⟨hpi, front, value, back, rfl, hspaces, hspaces', hobject⟩, ?_, rfl⟩
      rw [hfront, hback]
      simp
    · have htext : ¬isTextKey key := by simp [isTextKey, hname, hversion, hdescription]
      unfold readExtensions at h
      split_ifs at h with hkind
      · obtain ⟨texts, raw, harray, hraw, rfl⟩ := readPaths_sound h hrest
        exact ⟨.entries texts, raw, ⟨hextensions, harray⟩, hraw, rfl⟩
      · split at h
        · next q hskip =>
          cases h
          obtain ⟨text, raw, hraw, hslot, -⟩ := skipValue_sound hskip hrest
          rw [hraw, valueKind_append hd] at hkind
          exact ⟨.passed, raw, ⟨htext, hpi, ⟨text, hslot⟩, fun _ => hkind⟩, hraw,
            (if_pos hextensions).symm⟩
        · cases h
    · have htext : ¬isTextKey key := by simp [isTextKey, hname, hversion, hdescription]
      obtain ⟨rfl, hskip⟩ := Prod.mk.inj h
      obtain ⟨text, raw, hraw, hslot, -⟩ := skipValue_sound hskip hrest
      exact ⟨.passed, raw, ⟨htext, hpi, ⟨text, hslot⟩, fun heq => absurd heq hextensions⟩, hraw,
        (if_neg hextensions).symm⟩

/-! ### What is reported -/

/-- The texts the reader takes: an object of its grammar behind spaces, and anything behind it. -/
def Lenient (input : Bytes) : Prop :=
  ∃ members raw rest, input.dropWhile isSpace = raw ++ rest ∧ LooseObject TopField.Slot members raw

def Warning.isMalformed : Warning → Bool
  | .malformed .. => true
  | _ => false

/-- The text is reported to be no manifest. -/
def Parse.Malformed (s : Parse) : Prop := ∃ w ∈ s.warnings, w.isMalformed = true

lemma Parse.malformed_warn {s : Parse} {w : Warning} :
    (s.warn w).Malformed ↔ s.Malformed ∨ w.isMalformed = true := by
  simp [Parse.Malformed, Parse.warn, or_and_right, exists_or]

lemma PiField.malformed_foldl (members : List (String × PiField)) (s : Parse) :
    (members.foldl PiField.apply s).Malformed ↔ s.Malformed := by
  induction members generalizing s with
  | nil => rfl
  | cons member members ih =>
    rw [List.foldl_cons, ih]
    obtain ⟨key, texts | kind⟩ := member
    · show (if key = "skills" then _ else _ : Parse).Malformed ↔ _
      split_ifs <;> rfl
    · exact Parse.malformed_warn.trans (or_iff_left Bool.false_ne_true)

lemma TopField.malformed_foldl (members : List (String × TopField)) (s : Parse) :
    (members.foldl TopField.apply s).Malformed ↔ s.Malformed := by
  induction members generalizing s with
  | nil => rfl
  | cons member members ih =>
    rw [List.foldl_cons, ih]
    obtain ⟨key, value | pi | texts | _⟩ := member
    · show (if key = "name" then _ else if key = "version" then _ else _ : Parse).Malformed ↔ _
      split_ifs <;> rfl
    · exact PiField.malformed_foldl pi s
    · exact Parse.malformed_warn.trans (or_iff_left Bool.false_ne_true)
    · show (if key = "extensions" then _ else _ : Parse).Malformed ↔ _
      split_ifs
      · exact Parse.malformed_warn.trans (or_iff_left Bool.false_ne_true)
      · rfl

/-- Nothing read yet. -/
def Parse.start : Parse := { manifest := Manifest.empty, warnings := [] }

lemma parseText_complete {members : List (String × TopField)} {raw rest : Bytes}
    (h : LooseObject TopField.Slot members raw) {text : String} (path : String)
    (hrest : (utf8Bytes text.toList).dropWhile isSpace = raw ++ rest) :
    parseText text path = members.foldl TopField.apply Parse.start := by
  obtain ⟨p', hp', -⟩ := @parseObject_complete _ _ _ _ _ topFields_spec members raw rest h Parse.start
    (Parser.skipWhitespace ⟨0, utf8Bytes text.toList⟩)
    (by rw [Parser.skipWhitespace_rest, dropWhile_dropWhile, hrest])
  have htop : parseTopLevel Parse.start ⟨0, utf8Bytes text.toList⟩ =
      (members.foldl TopField.apply Parse.start, .ok () p') := hp'
  unfold parseText
  rw [show ({ manifest := Manifest.empty, warnings := [] } : Parse) = Parse.start from rfl, htop]

/-- **A text is reported exactly when the reader's grammar does not derive it.** -/
theorem malformed_iff (text path : String) :
    (parseText text path).Malformed ↔ ¬ Lenient (utf8Bytes text.toList) := by
  constructor
  · rintro hmalformed ⟨members, raw, rest, hrest, hobject⟩
    rw [parseText_complete hobject path hrest, TopField.malformed_foldl] at hmalformed
    obtain ⟨w, hw, -⟩ := hmalformed
    cases hw
  · intro hnot
    unfold parseText
    split
    · next s p' htop =>
      obtain ⟨members, raw, hraw, hobject, -⟩ := parseObject_sound topFields_spec htop
      rw [Parser.skipWhitespace_rest, dropWhile_dropWhile] at hraw
      exact absurd ⟨members, raw, _, hraw, hobject⟩ hnot
    · exact Parse.malformed_warn.mpr (Or.inr rfl)

end Rupi.Package
