import Rupi.Core.Encode
import Rupi.Lib.Cut
import Rupi.Lib.Replacing

/-!
`String::from_utf8_lossy`.

- `utf8`: the code of the characters; what is no character is replaced by U+FFFD.
- `fromUtf8Lossy`: the characters of a list of bytes.
- `fromUtf8Lossy_utf8Bytes`: a text is read back from its bytes.
- `exists_prefix_fromUtf8Lossy`: of bytes that are cut off, all but the last three are read whatever
  follows.
-/

namespace Rupi

open Replacing

/-- The bytes of a character behind its first. -/
def isContinuation (b : UInt8) : Bool := 0x80 ≤ b && b ≤ 0xBF

/-- The length of a character, from its first byte. -/
def charWidth (b : UInt8) : Nat := if b < 0xE0 then 2 else if b < 0xF0 then 3 else 4

/-- What may follow the first byte of a character. -/
def secondByte (first b : UInt8) : Bool :=
  if first = 0xE0 then 0xA0 ≤ b && b ≤ 0xBF
  else if first = 0xED then 0x80 ≤ b && b ≤ 0x9F
  else if first = 0xF0 then 0x90 ≤ b && b ≤ 0xBF
  else if first = 0xF4 then 0x80 ≤ b && b ≤ 0x8F
  else isContinuation b

def wordGoesOn : List UInt8 → UInt8 → Bool
  | [], _ => false
  | [first], b => secondByte first b
  | _ :: _ :: _, b => isContinuation b

/-- The value of a character, from its bytes. -/
def wordValue : List UInt8 → Nat
  | [a, b] => (a.toNat - 0xC0) * 64 + (b.toNat - 0x80)
  | [a, b, c] => ((a.toNat - 0xE0) * 64 + (b.toNat - 0x80)) * 64 + (c.toNat - 0x80)
  | [a, b, c, d] =>
    (((a.toNat - 0xF0) * 64 + (b.toNat - 0x80)) * 64 + (c.toNat - 0x80)) * 64 + (d.toNat - 0x80)
  | _ => 0

def wordSymbol : List UInt8 → Option Char
  | [] => none
  | first :: rest =>
    if rest.length + 1 = charWidth first then some (Char.ofNat (wordValue (first :: rest)))
    else none

def leadByte (b : UInt8) : Lead Char :=
  if b < 0x80 then .symbol (Char.ofNat b.toNat)
  else if 0xC2 ≤ b ∧ b ≤ 0xF4 then .opens
  else .bad

lemma isContinuation_of_wordGoesOn {word : List UInt8} {b : UInt8} (h : wordGoesOn word b = true) :
    isContinuation b = true := by
  rcases word with - | ⟨first, - | ⟨second, word⟩⟩
  · cases h
  · rw [wordGoesOn, secondByte] at h
    rw [isContinuation]
    split_ifs at h <;>
      simp only [Bool.and_eq_true, decide_eq_true_eq, UInt8.le_iff_toNat_le, isContinuation] at h ⊢ <;>
      simp at h ⊢ <;> omega
  · exact h

/-- The characters of UTF-8; no byte inside a character begins one. -/
def utf8 : Code UInt8 Char where
  lead := leadByte
  goesOn := wordGoesOn
  symbol := wordSymbol
  mark := '\uFFFD'
  goesOn_nil _ := rfl
  lead_of_goesOn word b h := by
    have hcontinuation := isContinuation_of_wordGoesOn h
    rw [isContinuation, Bool.and_eq_true, decide_eq_true_eq, decide_eq_true_eq,
      UInt8.le_iff_toNat_le, UInt8.le_iff_toNat_le] at hcontinuation
    rw [leadByte, if_neg, if_neg]
    · rw [UInt8.le_iff_toNat_le]
      simp at hcontinuation ⊢
      omega
    · rw [UInt8.lt_iff_toNat_lt]
      simp at hcontinuation ⊢
      omega

/-- `String::from_utf8_lossy`. -/
def fromUtf8Lossy (bytes : List UInt8) : List Char := decode utf8 bytes

example : fromUtf8Lossy [0x41, 0xE2, 0x82, 0xAC, 0xE2, 0x82, 0x42, 0xFF] =
    "A€\uFFFDB\uFFFD".toList := by decide

/-! ### A text is read back from its bytes -/

lemma toNat_ofNat_of_lt {n : Nat} (h : n < 256) : (UInt8.ofNat n).toNat = n := by
  rw [UInt8.toNat_ofNat', Nat.mod_eq_of_lt h]

lemma isContinuation_ofNat {n : Nat} (h : n < 64) :
    isContinuation (UInt8.ofNat (n + 0x80)) = true := by
  have hn : (UInt8.ofNat (n + 0x80)).toNat = n + 0x80 := toNat_ofNat_of_lt (by omega)
  rw [isContinuation, Bool.and_eq_true, decide_eq_true_eq, decide_eq_true_eq,
    UInt8.le_iff_toNat_le, UInt8.le_iff_toNat_le, hn]
  simp
  omega

/-- A first byte opens a word. -/
lemma step_opens {a : UInt8} (hlow : 0xC2 ≤ a.toNat) (hhigh : a.toNat ≤ 0xF4) :
    step utf8 [] a = ([], [a]) := by
  have hlead : utf8.lead a = .opens := by
    rw [show utf8.lead a = leadByte a from rfl, leadByte, if_neg, if_pos]
    · rw [UInt8.le_iff_toNat_le, UInt8.le_iff_toNat_le]
      exact ⟨hlow, hhigh⟩
    · rw [UInt8.lt_iff_toNat_lt]
      simp
      omega
  rw [step, if_neg (by simp [utf8.goesOn_nil]), hlead]
  rfl

/-- A byte that a word goes on with leaves it open, or makes it a character. -/
lemma step_goesOn {word : List UInt8} {b : UInt8} (h : wordGoesOn word b = true) :
    step utf8 word b = match wordSymbol (word ++ [b]) with
      | some c => ([c], [])
      | none => ([], word ++ [b]) := by
  rw [step, if_pos (show utf8.goesOn word b = true from h),
    show utf8.symbol (word ++ [b]) = wordSymbol (word ++ [b]) from rfl]
  cases wordSymbol (word ++ [b]) <;> rfl

lemma charWidth_eq (a : UInt8) :
    charWidth a = if a.toNat < 0xE0 then 2 else if a.toNat < 0xF0 then 3 else 4 := by
  simp only [charWidth, UInt8.lt_iff_toNat_lt]
  rfl

/-- Every byte behind the first is one that the word goes on with. -/
lemma secondByte_eq {a b : UInt8} (h : isContinuation b = true)
    (he0 : a.toNat = 0xE0 → 0xA0 ≤ b.toNat) (hed : a.toNat = 0xED → b.toNat ≤ 0x9F)
    (hf0 : a.toNat = 0xF0 → 0x90 ≤ b.toNat) (hf4 : a.toNat = 0xF4 → b.toNat ≤ 0x8F) :
    secondByte a b = true := by
  have hbounds := h
  rw [isContinuation, Bool.and_eq_true, decide_eq_true_eq, decide_eq_true_eq,
    UInt8.le_iff_toNat_le, UInt8.le_iff_toNat_le] at hbounds
  rw [secondByte]
  split_ifs with h1 h2 h3 h4
  · rw [Bool.and_eq_true, decide_eq_true_eq, decide_eq_true_eq, UInt8.le_iff_toNat_le,
      UInt8.le_iff_toNat_le]
    exact ⟨he0 (by rw [h1]; rfl), hbounds.2⟩
  · rw [Bool.and_eq_true, decide_eq_true_eq, decide_eq_true_eq, UInt8.le_iff_toNat_le,
      UInt8.le_iff_toNat_le]
    exact ⟨hbounds.1, hed (by rw [h2]; rfl)⟩
  · rw [Bool.and_eq_true, decide_eq_true_eq, decide_eq_true_eq, UInt8.le_iff_toNat_le,
      UInt8.le_iff_toNat_le]
    exact ⟨hf0 (by rw [h3]; rfl), hbounds.2⟩
  · rw [Bool.and_eq_true, decide_eq_true_eq, decide_eq_true_eq, UInt8.le_iff_toNat_le,
      UInt8.le_iff_toNat_le]
    exact ⟨hbounds.1, hf4 (by rw [h4]; rfl)⟩
  · exact h

/-- A byte on its own is a character. -/
lemma step_symbol {a : UInt8} (h : a.toNat < 0x80) :
    step utf8 [] a = ([Char.ofNat a.toNat], []) := by
  have hlead : utf8.lead a = .symbol (Char.ofNat a.toNat) := by
    rw [show utf8.lead a = leadByte a from rfl, leadByte, if_pos]
    rw [UInt8.lt_iff_toNat_lt]
    exact h
  rw [step, if_neg (by simp [utf8.goesOn_nil]), hlead]
  rfl

lemma step_of_symbol {word : List UInt8} {b : UInt8} {c : Char} (h : wordGoesOn word b = true)
    (hsymbol : wordSymbol (word ++ [b]) = some c) : step utf8 word b = ([c], []) := by
  rw [step_goesOn h, hsymbol]

lemma step_of_open {word : List UInt8} {b : UInt8} (h : wordGoesOn word b = true)
    (hopen : wordSymbol (word ++ [b]) = none) : step utf8 word b = ([], word ++ [b]) := by
  rw [step_goesOn h, hopen]

/-- A word is complete when it has the width of its first byte. -/
lemma wordSymbol_cons (a : UInt8) (rest : List UInt8) :
    wordSymbol (a :: rest) =
      if rest.length + 1 = charWidth a then some (Char.ofNat (wordValue (a :: rest))) else none :=
  rfl

/-- The bytes of a character of two, three or four. -/
lemma read_two {a b : UInt8} (hlow : 0xC2 ≤ a.toNat) (hhigh : a.toNat < 0xE0)
    (hb : isContinuation b = true) :
    Replacing.read utf8 [] [a, b] = ([Char.ofNat (wordValue [a, b])], []) := by
  have hgoes : wordGoesOn [a] b = true :=
    secondByte_eq hb (by omega) (by omega) (by omega) (by omega)
  have hwidth : charWidth a = 2 := by rw [charWidth_eq, if_pos hhigh]
  have hfirst : step utf8 [] a = ([], [a]) := step_opens hlow (by omega)
  have hsecond : step utf8 [a] b = ([Char.ofNat (wordValue [a, b])], []) :=
    step_of_symbol hgoes (by simp [wordSymbol_cons, hwidth])
  simp [Replacing.read, hfirst, hsecond]

lemma read_three {a b c : UInt8} (hlow : 0xE0 ≤ a.toNat) (hhigh : a.toNat < 0xF0)
    (hb : secondByte a b = true) (hc : isContinuation c = true) :
    Replacing.read utf8 [] [a, b, c] = ([Char.ofNat (wordValue [a, b, c])], []) := by
  have hwidth : charWidth a = 3 := by rw [charWidth_eq, if_neg (by omega), if_pos hhigh]
  have hfirst : step utf8 [] a = ([], [a]) := step_opens (by omega) (by omega)
  have hsecond : step utf8 [a] b = ([], [a, b]) :=
    step_of_open hb (by simp [wordSymbol_cons, hwidth])
  have hthird : step utf8 [a, b] c = ([Char.ofNat (wordValue [a, b, c])], []) :=
    step_of_symbol hc (by simp [wordSymbol_cons, hwidth])
  simp [Replacing.read, hfirst, hsecond, hthird]

lemma read_four {a b c d : UInt8} (hlow : 0xF0 ≤ a.toNat) (hhigh : a.toNat ≤ 0xF4)
    (hb : secondByte a b = true) (hc : isContinuation c = true)
    (hd : isContinuation d = true) :
    Replacing.read utf8 [] [a, b, c, d] = ([Char.ofNat (wordValue [a, b, c, d])], []) := by
  have hwidth : charWidth a = 4 := by rw [charWidth_eq, if_neg (by omega), if_neg (by omega)]
  have hfirst : step utf8 [] a = ([], [a]) := step_opens (by omega) hhigh
  have hsecond : step utf8 [a] b = ([], [a, b]) :=
    step_of_open hb (by simp [wordSymbol_cons, hwidth])
  have hthird : step utf8 [a, b] c = ([], [a, b, c]) :=
    step_of_open hc (by simp [wordSymbol_cons, hwidth])
  have hfourth : step utf8 [a, b, c] d = ([Char.ofNat (wordValue [a, b, c, d])], []) :=
    step_of_symbol hd (by simp [wordSymbol_cons, hwidth])
  simp [Replacing.read, hfirst, hsecond, hthird, hfourth]

/-- **The bytes of a character are read as the character.** -/
lemma read_utf8EncodeChar (c : Char) :
    Replacing.read utf8 [] (String.utf8EncodeChar c) = ([c], []) := by
  have hvalid : c.val.toNat < 55296 ∨ 57343 < c.val.toNat ∧ c.val.toNat < 1114112 := c.valid
  have hvalue : Char.ofNat c.val.toNat = c := Char.ofNat_toNat c
  unfold String.utf8EncodeChar
  dsimp only
  generalize c.val.toNat = v at *
  subst hvalue
  split_ifs with h1 h2 h3
  · have ha : (UInt8.ofNat v).toNat = v := toNat_ofNat_of_lt (by omega)
    simp [Replacing.read, step_symbol (show (UInt8.ofNat v).toNat < 0x80 by omega), ha]
  · have ha : (UInt8.ofNat (v / 64 % 32 + 192)).toNat = v / 64 + 192 := by
      rw [toNat_ofNat_of_lt (by omega)]
      omega
    have hb : (UInt8.ofNat (v % 64 + 128)).toNat = v % 64 + 128 := toNat_ofNat_of_lt (by omega)
    have hvalue : wordValue [UInt8.ofNat (v / 64 % 32 + 192), UInt8.ofNat (v % 64 + 128)] = v := by
      show (UInt8.toNat _ - 192) * 64 + (UInt8.toNat _ - 128) = v
      rw [ha, hb]
      omega
    rw [read_two (by rw [ha]; omega) (by rw [ha]; omega) (isContinuation_ofNat (by omega)), hvalue]
  · have ha : (UInt8.ofNat (v / 4096 % 16 + 224)).toNat = v / 4096 + 224 := by
      rw [toNat_ofNat_of_lt (by omega)]
      omega
    have hb : (UInt8.ofNat (v / 64 % 64 + 128)).toNat = v / 64 % 64 + 128 :=
      toNat_ofNat_of_lt (by omega)
    have hc : (UInt8.ofNat (v % 64 + 128)).toNat = v % 64 + 128 := toNat_ofNat_of_lt (by omega)
    have hvalue : wordValue [UInt8.ofNat (v / 4096 % 16 + 224), UInt8.ofNat (v / 64 % 64 + 128),
        UInt8.ofNat (v % 64 + 128)] = v := by
      show ((UInt8.toNat _ - 224) * 64 + (UInt8.toNat _ - 128)) * 64 + (UInt8.toNat _ - 128) = v
      rw [ha, hb, hc]
      omega
    rw [read_three (by rw [ha]; omega) (by rw [ha]; omega)
      (secondByte_eq (isContinuation_ofNat (by omega)) (by rw [ha, hb]; omega)
        (by rw [ha, hb]; omega) (by rw [ha]; omega) (by rw [ha]; omega))
      (isContinuation_ofNat (by omega)), hvalue]
  · have ha : (UInt8.ofNat (v / 262144 % 8 + 240)).toNat = v / 262144 + 240 := by
      rw [toNat_ofNat_of_lt (by omega)]
      omega
    have hb : (UInt8.ofNat (v / 4096 % 64 + 128)).toNat = v / 4096 % 64 + 128 :=
      toNat_ofNat_of_lt (by omega)
    have hc : (UInt8.ofNat (v / 64 % 64 + 128)).toNat = v / 64 % 64 + 128 :=
      toNat_ofNat_of_lt (by omega)
    have hd : (UInt8.ofNat (v % 64 + 128)).toNat = v % 64 + 128 := toNat_ofNat_of_lt (by omega)
    have hvalue : wordValue [UInt8.ofNat (v / 262144 % 8 + 240), UInt8.ofNat (v / 4096 % 64 + 128),
        UInt8.ofNat (v / 64 % 64 + 128), UInt8.ofNat (v % 64 + 128)] = v := by
      show (((UInt8.toNat _ - 240) * 64 + (UInt8.toNat _ - 128)) * 64 + (UInt8.toNat _ - 128)) * 64 +
        (UInt8.toNat _ - 128) = v
      rw [ha, hb, hc, hd]
      omega
    rw [read_four (by rw [ha]; omega) (by rw [ha]; omega)
      (secondByte_eq (isContinuation_ofNat (by omega)) (by rw [ha]; omega) (by rw [ha]; omega)
        (by rw [ha, hb]; omega) (by rw [ha, hb]; omega))
      (isContinuation_ofNat (by omega)) (isContinuation_ofNat (by omega)), hvalue]

/-- **A text is read back from its bytes.** -/
theorem fromUtf8Lossy_utf8Bytes (text : List Char) : fromUtf8Lossy (utf8Bytes text) = text := by
  induction text with
  | nil => rfl
  | cons c text ih =>
    have hopen : openWord utf8 (String.utf8EncodeChar c) = [] := by
      rw [openWord, read_utf8EncodeChar]
    rw [fromUtf8Lossy, utf8Bytes, List.flatMap_cons, decode_append, hopen, read_utf8EncodeChar,
      List.singleton_append]
    exact congrArg (c :: ·) ih

/-! ### How much is read -/

/-- The words that are open between two bytes. -/
inductive OpenWord : List UInt8 → Prop
  | nil : OpenWord []
  | one {a : UInt8} (hlow : 0xC2 ≤ a.toNat) (hhigh : a.toNat ≤ 0xF4) : OpenWord [a]
  | two {a b : UInt8} (hlow : 0xE0 ≤ a.toNat) (hhigh : a.toNat ≤ 0xF4)
      (hb : secondByte a b = true) : OpenWord [a, b]
  | three {a b c : UInt8} (hlow : 0xF0 ≤ a.toNat) (hhigh : a.toNat ≤ 0xF4)
      (hb : secondByte a b = true) (hc : isContinuation c = true) : OpenWord [a, b, c]

lemma OpenWord.length_le {word : List UInt8} (h : OpenWord word) : word.length ≤ 3 := by
  cases h <;> simp

lemma isContinuation_iff {b : UInt8} :
    isContinuation b = true ↔ 0x80 ≤ b.toNat ∧ b.toNat ≤ 0xBF := by
  rw [isContinuation, Bool.and_eq_true, decide_eq_true_eq, decide_eq_true_eq,
    UInt8.le_iff_toNat_le, UInt8.le_iff_toNat_le]
  rfl

/-- What the second byte is held to. -/
lemma secondByte_bounds {a b : UInt8} (h : secondByte a b = true) :
    (0x80 ≤ b.toNat ∧ b.toNat ≤ 0xBF) ∧ (a.toNat = 0xE0 → 0xA0 ≤ b.toNat) ∧
      (a.toNat = 0xED → b.toNat ≤ 0x9F) ∧ (a.toNat = 0xF0 → 0x90 ≤ b.toNat) ∧
      (a.toNat = 0xF4 → b.toNat ≤ 0x8F) := by
  have hcontinuation : isContinuation b = true :=
    isContinuation_of_wordGoesOn (show wordGoesOn [a] b = true from h)
  rw [isContinuation_iff] at hcontinuation
  refine ⟨hcontinuation, ?_, ?_, ?_, ?_⟩ <;> intro ha <;>
    simp [secondByte, UInt8.ext_iff, ha, UInt8.le_iff_toNat_le] at h <;> omega

lemma val_ofNat {n : Nat} (h : n.isValidChar) : (Char.ofNat n).val.toNat = n := by
  rw [Char.ofNat, dif_pos h]
  rfl

lemma utf8Size_ofNat {n : Nat} (h : n.isValidChar) :
    (Char.ofNat n).utf8Size =
      if n ≤ 0x7F then 1 else if n ≤ 0x7FF then 2 else if n ≤ 0xFFFF then 3 else 4 := by
  simp only [Char.utf8Size, UInt32.le_iff_toNat_le, val_ofNat h]
  rfl

lemma wordSymbol_eq_some {a : UInt8} {rest : List UInt8} {c : Char}
    (h : wordSymbol (a :: rest) = some c) :
    rest.length + 1 = charWidth a ∧ Char.ofNat (wordValue (a :: rest)) = c := by
  rw [wordSymbol_cons] at h
  split_ifs at h with hwidth
  exact ⟨hwidth, Option.some.inj h⟩

/-- A word that is complete is a character of its length. -/
lemma utf8Size_wordSymbol {word : List UInt8} {b : UInt8} {c : Char} (h : OpenWord word)
    (hgoes : wordGoesOn word b = true) (hsymbol : wordSymbol (word ++ [b]) = some c) :
    c.utf8Size = word.length + 1 := by
  cases h with
  | nil => cases hgoes
  | @one a hlow hhigh =>
    have hb := secondByte_bounds (show secondByte a b = true from hgoes)
    obtain ⟨hwidth, hsymbol⟩ := wordSymbol_eq_some (show wordSymbol [a, b] = some c from hsymbol)
    have hvalue : wordValue [a, b] = (a.toNat - 0xC0) * 64 + (b.toNat - 0x80) := rfl
    have ha : a.toNat < 0xE0 := by
      rw [charWidth_eq] at hwidth
      split_ifs at hwidth <;> simp at hwidth
      omega
    have hvalid : (wordValue [a, b]).isValidChar := .inl (by omega)
    rw [← hsymbol, utf8Size_ofNat hvalid, if_neg (by omega), if_pos (by omega)]
    rfl
  | @two a b' hlow hhigh hb' =>
    have hb' := secondByte_bounds hb'
    have hb := isContinuation_iff.1 (show isContinuation b = true from hgoes)
    obtain ⟨hwidth, hsymbol⟩ :=
      wordSymbol_eq_some (show wordSymbol [a, b', b] = some c from hsymbol)
    have hvalue : wordValue [a, b', b] =
      ((a.toNat - 0xE0) * 64 + (b'.toNat - 0x80)) * 64 + (b.toNat - 0x80) := rfl
    have ha : a.toNat < 0xF0 := by
      rw [charWidth_eq] at hwidth
      split_ifs at hwidth <;> simp at hwidth
      omega
    have hvalid : (wordValue [a, b', b]).isValidChar := by
      rw [Nat.isValidChar]
      omega
    rw [← hsymbol, utf8Size_ofNat hvalid, if_neg (by omega), if_neg (by omega), if_pos (by omega)]
    rfl
  | @three a b' b'' hlow hhigh hb' hb'' =>
    have hb' := secondByte_bounds hb'
    have hb'' := isContinuation_iff.1 hb''
    have hb := isContinuation_iff.1 (show isContinuation b = true from hgoes)
    obtain ⟨-, hsymbol⟩ :=
      wordSymbol_eq_some (show wordSymbol [a, b', b'', b] = some c from hsymbol)
    have hvalue : wordValue [a, b', b'', b] = (((a.toNat - 0xF0) * 64 + (b'.toNat - 0x80)) * 64 +
      (b''.toNat - 0x80)) * 64 + (b.toNat - 0x80) := rfl
    have hvalid : (wordValue [a, b', b'', b]).isValidChar := by
      rw [Nat.isValidChar]
      omega
    rw [← hsymbol, utf8Size_ofNat hvalid, if_neg (by omega), if_neg (by omega), if_neg (by omega)]
    rfl

/-- A word that goes on and is not complete stays open. -/
lemma OpenWord.goesOn {word : List UInt8} {b : UInt8} (h : OpenWord word)
    (hgoes : wordGoesOn word b = true) (hopen : wordSymbol (word ++ [b]) = none) :
    OpenWord (word ++ [b]) := by
  cases h with
  | nil => cases hgoes
  | @one a hlow hhigh =>
    have hwidth : ¬ [b].length + 1 = charWidth a := fun heq => by
      rw [List.singleton_append, wordSymbol_cons, if_pos heq] at hopen
      cases hopen
    rw [charWidth_eq] at hwidth
    refine .two ?_ hhigh hgoes
    by_contra hnarrow
    exact hwidth (by rw [if_pos (by omega)]; rfl)
  | @two a b' hlow hhigh hb' =>
    have hwidth : ¬ [b', b].length + 1 = charWidth a := fun heq => by
      have hsymbol := wordSymbol_cons a [b', b]
      rw [if_pos heq] at hsymbol
      rw [show [a, b'] ++ [b] = [a, b', b] from rfl, hsymbol] at hopen
      cases hopen
    rw [charWidth_eq, if_neg (by omega)] at hwidth
    refine .three ?_ hhigh hb' hgoes
    by_contra hnarrow
    exact hwidth (by rw [if_pos (by omega)]; rfl)
  | @three a b' b'' hlow hhigh hb' hb'' =>
    have hsymbol := wordSymbol_cons a [b', b'', b]
    rw [if_pos (by rw [charWidth_eq, if_neg (by omega), if_neg (by omega)]; rfl)] at hsymbol
    rw [show [a, b', b''] ++ [b] = [a, b', b'', b] from rfl, hsymbol] at hopen
    cases hopen

/-- Every byte is in the text or in the open word, and only the byte 0 is the character 0. -/
structure Accounted (bytes : List UInt8) (read : List Char × List UInt8) : Prop where
  isOpen : OpenWord read.2
  size : bytes.length ≤ Cut.total Char.utf8Size read.1 + read.2.length
  nul : '\x00' ∈ read.1 → 0 ∈ bytes

lemma OpenWord.zero_notMem {word : List UInt8} (h : OpenWord word) : 0 ∉ word := by
  intro hmem
  cases h with
  | nil => cases hmem
  | @one a hlow hhigh =>
    obtain rfl : 0 = a := by simpa using hmem
    simp at hlow
  | @two a b hlow hhigh hb =>
    have hb := secondByte_bounds hb
    rcases (by simpa using hmem : 0 = a ∨ 0 = b) with rfl | rfl
    · simp at hlow
    · simp at hb
  | @three a b c hlow hhigh hb hc =>
    have hb := secondByte_bounds hb
    have hc := isContinuation_iff.1 hc
    rcases (by simpa using hmem : 0 = a ∨ 0 = b ∨ 0 = c) with rfl | rfl | rfl
    · simp at hlow
    · simp at hb
    · simp at hc

lemma size_flush {word : List UInt8} (h : OpenWord word) :
    word.length ≤ Cut.total Char.utf8Size (flush utf8 word) := by
  cases h <;> simp [flush, utf8, show ('\uFFFD').utf8Size = 3 from rfl]

lemma nul_notMem_flush (word : List UInt8) : '\x00' ∉ flush utf8 word := by
  rw [flush]
  split_ifs
  · exact List.not_mem_nil
  · simp [utf8]

/-- A byte behind a word that does not go on. -/
lemma accounted_step_nil (b : UInt8) : Accounted [b] (step utf8 [] b) := by
  rw [step, if_neg (by simp [utf8.goesOn_nil])]
  cases hlead : utf8.lead b with
  | symbol c =>
    have hc : c = Char.ofNat b.toNat ∧ b.toNat < 0x80 := by
      rw [show utf8.lead b = leadByte b from rfl, leadByte] at hlead
      split_ifs at hlead with hsmall
      injection hlead with hc
      exact ⟨hc.symm, by simpa [UInt8.lt_iff_toNat_lt] using hsmall⟩
    have hpos := c.utf8Size_pos
    refine ⟨.nil, by simpa using Nat.succ_le_of_lt hpos, fun hnul => ?_⟩
    have hzero : (Char.ofNat b.toNat).val.toNat = 0 := by
      rw [← hc.1, ← (by simpa using hnul : '\x00' = c)]
      rfl
    rw [val_ofNat (.inl (by omega))] at hzero
    rw [UInt8.toNat_inj.1 (show b.toNat = (0 : UInt8).toNat from hzero)]
    exact List.mem_singleton_self 0
  | opens =>
    have hbounds : 0xC2 ≤ b.toNat ∧ b.toNat ≤ 0xF4 := by
      rw [show utf8.lead b = leadByte b from rfl, leadByte] at hlead
      split_ifs at hlead with hsmall hrange
      simpa [UInt8.le_iff_toNat_le] using hrange
    exact ⟨.one hbounds.1 hbounds.2, by simp, by simp⟩
  | bad => exact ⟨.nil, by simp [utf8, show ('\uFFFD').utf8Size = 3 from rfl], by simp [utf8]⟩

lemma accounted_step {word : List UInt8} (h : OpenWord word) (b : UInt8) :
    Accounted (word ++ [b]) (step utf8 word b) := by
  cases hgoes : wordGoesOn word b with
  | true =>
    rw [step_goesOn hgoes]
    cases hsymbol : wordSymbol (word ++ [b]) with
    | some c =>
      have hsize := utf8Size_wordSymbol h hgoes hsymbol
      refine ⟨.nil, by simp [hsize], fun hnul => ?_⟩
      obtain rfl : '\x00' = c := by simpa using hnul
      cases h with
      | nil => cases hgoes
      | one => simp at hsize; cases hsize
      | two => simp at hsize; cases hsize
      | three => simp at hsize; cases hsize
    | none => exact ⟨h.goesOn hgoes hsymbol, by simp, by simp⟩
  | false =>
    have hafresh := accounted_step_nil b
    have hflush := size_flush h
    rw [step_of_not_goesOn (show utf8.goesOn word b = false from hgoes)]
    refine ⟨hafresh.isOpen, ?_, fun hnul => ?_⟩
    · have hsize := hafresh.size
      simp only [List.length_append, Cut.total_append] at hsize ⊢
      omega
    · rcases List.mem_append.1 hnul with hnul | hnul
      · exact absurd hnul (nul_notMem_flush word)
      · exact List.mem_append_right _ (hafresh.nul hnul)

/-- Every byte of a list is accounted for. -/
lemma accounted_read {word : List UInt8} (h : OpenWord word) (bytes : List UInt8) :
    Accounted (word ++ bytes) (Replacing.read utf8 word bytes) := by
  induction bytes generalizing word with
  | nil => exact ⟨h, by simp [Replacing.read], by simp [Replacing.read]⟩
  | cons b bytes ih =>
    have hstep := accounted_step h b
    have hrest := ih hstep.isOpen
    refine ⟨hrest.isOpen, ?_, fun hnul => ?_⟩
    · have hsize := hstep.size
      have hrestSize := hrest.size
      simp only [List.length_append, List.length_cons, Replacing.read, Cut.total_append] at *
      omega
    · rcases List.mem_append.1 hnul with hnul | hnul
      · exact List.mem_append.2 <| (List.mem_append.1 (hstep.nul hnul)).imp_right fun hb =>
          List.mem_cons.2 (.inl (List.mem_singleton.1 hb))
      · rcases List.mem_append.1 (hrest.nul hnul) with hzero | hzero
        · exact absurd hzero hstep.isOpen.zero_notMem
        · exact List.mem_append_right _ (List.mem_cons_of_mem _ hzero)

/-- The character 0 is read of the byte 0 only. -/
lemma zero_mem_of_nul_mem {bytes : List UInt8} (h : '\x00' ∈ fromUtf8Lossy bytes) : 0 ∈ bytes := by
  rcases List.mem_append.1 h with hnul | hnul
  · simpa using (accounted_read .nil bytes).nul hnul
  · exact absurd hnul (nul_notMem_flush _)

/-- **Bytes that are cut off**: what is read of them is read whatever follows, but for a mark at
the end in place of three bytes at most. -/
theorem exists_prefix_fromUtf8Lossy (front back : List UInt8) :
    ∃ text tail, fromUtf8Lossy front = text ++ tail ∧ text <+: fromUtf8Lossy (front ++ back) ∧
      front.length ≤ Cut.total Char.utf8Size text + 3 := by
  have hread := accounted_read .nil front
  refine ⟨_, _, rfl, ?_, ?_⟩
  · rw [fromUtf8Lossy, decode_append]
    exact List.prefix_append _ _
  · have hsize := hread.size
    have hopen := hread.isOpen.length_le
    rw [List.nil_append] at hsize
    omega

end Rupi
