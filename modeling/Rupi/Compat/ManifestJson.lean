import Rupi.Compat.ManifestGrammar
import Rupi.Core.Lossy
import Rupi.Store.RestoreFields

/-!
JSON texts and what the manifest reader makes of them.

- `JsonValue`, `JsonObject`: the grammar of JSON, over the bytes of a text; its index says
  whether strings may escape a character as a pair of surrogates.
- `looseValue_of_json`, `looseMembers_of_json`: JSON without such pairs is in the reader's
  grammar, with the same strings.
- `manifest_reads_json`: what is read of a JSON object, and what is reported of other texts.
-/

namespace Rupi.Package

/-! ### The grammar of JSON -/

inductive JsonChars (pairs : Bool) : List Char → Bytes → Prop
  | nil : JsonChars pairs [] []
  | char {c : Char} {out : List Char} {raw : Bytes} (hcontrol : 0x20 ≤ c.toNat) (hquote : c ≠ '"')
      (hback : c ≠ '\\') (hrest : JsonChars pairs out raw) :
      JsonChars pairs (c :: out) (String.utf8EncodeChar c ++ raw)
  | escape {e : UInt8} {c : Char} {out : List Char} {raw : Bytes} (hescape : simpleEscape e = some c)
      (hrest : JsonChars pairs out raw) : JsonChars pairs (c :: out) (backslash :: e :: raw)
  | unicode {h₁ h₂ h₃ h₄ : UInt8} {code : Nat} {c : Char} {out : List Char} {raw : Bytes}
      (hcode : hexCode h₁ h₂ h₃ h₄ = some code) (hchar : charFromU32 code = some c)
      (hrest : JsonChars pairs out raw) :
      JsonChars pairs (c :: out) (backslash :: 0x75 :: h₁ :: h₂ :: h₃ :: h₄ :: raw)
  | pair {h₁ h₂ h₃ h₄ l₁ l₂ l₃ l₄ : UInt8} {high low : Nat} {out : List Char} {raw : Bytes}
      (hpairs : pairs = true) (hhigh : hexCode h₁ h₂ h₃ h₄ = some high)
      (hlow : hexCode l₁ l₂ l₃ l₄ = some low) (hhigh' : 0xD800 ≤ high ∧ high < 0xDC00)
      (hlow' : 0xDC00 ≤ low ∧ low < 0xE000) (hrest : JsonChars pairs out raw) :
      JsonChars pairs (Char.ofNat (0x10000 + (high - 0xD800) * 0x400 + (low - 0xDC00)) :: out)
        (backslash :: 0x75 :: h₁ :: h₂ :: h₃ :: h₄ ::
          backslash :: 0x75 :: l₁ :: l₂ :: l₃ :: l₄ :: raw)

def JsonString (pairs : Bool) (text : String) (raw : Bytes) : Prop :=
  ∃ out chars, raw = quote :: (chars ++ [quote]) ∧ JsonChars pairs out chars ∧
    text = String.ofList out

def isDecimal (b : UInt8) : Bool := 0x30 ≤ b && b ≤ 0x39

def Decimals (raw : Bytes) : Prop := raw ≠ [] ∧ ∀ b ∈ raw, isDecimal b = true

/-- `[ minus ] int [ frac ] [ exp ]`. -/
def JsonNumber (raw : Bytes) : Prop :=
  ∃ minus int frac exp, raw = minus ++ (int ++ (frac ++ exp)) ∧ (minus = [] ∨ minus = [0x2D]) ∧
    (int = [0x30] ∨ Decimals int ∧ int.head? ≠ some 0x30) ∧
    (frac = [] ∨ ∃ digits, frac = 0x2E :: digits ∧ Decimals digits) ∧
    (exp = [] ∨ ∃ e sign digits, exp = e :: (sign ++ digits) ∧ (e = 0x65 ∨ e = 0x45) ∧
      (sign = [] ∨ sign = [0x2B] ∨ sign = [0x2D]) ∧ Decimals digits)

/-- `true`, `false`, `null`, or a number. -/
def JsonAtom (raw : Bytes) : Prop :=
  raw = [0x74, 0x72, 0x75, 0x65] ∨ raw = [0x66, 0x61, 0x6C, 0x73, 0x65] ∨
    raw = [0x6E, 0x75, 0x6C, 0x6C] ∨ JsonNumber raw

inductive Json where
  | string (text : String)
  | atom (raw : Bytes)
  | array (items : List Json)
  | object (members : List (String × Json))

def Json.text? : Json → Option String
  | .string text => some text
  | _ => none

mutual

/-- A value, at its first byte. -/
inductive JsonValue (pairs : Bool) : Json → Bytes → Prop
  | string {text : String} {raw : Bytes} (h : JsonString pairs text raw) :
      JsonValue pairs (.string text) raw
  | atom {raw : Bytes} (h : JsonAtom raw) : JsonValue pairs (.atom raw) raw
  | emptyArray {inner : Bytes} (h : Spaces inner) :
      JsonValue pairs (.array []) (lbracket :: (inner ++ [rbracket]))
  | array {items : List Json} {inner : Bytes} (h : JsonElements pairs items inner) :
      JsonValue pairs (.array items) (lbracket :: (inner ++ [rbracket]))
  | emptyObject {inner : Bytes} (h : Spaces inner) :
      JsonValue pairs (.object []) (lbrace :: (inner ++ [rbrace]))
  | object {members : List (String × Json)} {inner : Bytes} (h : JsonMembers pairs members inner) :
      JsonValue pairs (.object members) (lbrace :: (inner ++ [rbrace]))

/-- Values between commas, with spaces around each. -/
inductive JsonElements (pairs : Bool) : List Json → Bytes → Prop
  | one {v : Json} {front raw back : Bytes} (hfront : Spaces front) (hback : Spaces back)
      (h : JsonValue pairs v raw) : JsonElements pairs [v] (front ++ (raw ++ back))
  | more {v : Json} {items : List Json} {front raw back raws : Bytes} (hfront : Spaces front)
      (hback : Spaces back) (h : JsonValue pairs v raw) (hrest : JsonElements pairs items raws) :
      JsonElements pairs (v :: items) (front ++ (raw ++ back) ++ comma :: raws)

/-- Members between commas, with spaces around each key and each value. -/
inductive JsonMembers (pairs : Bool) : List (String × Json) → Bytes → Prop
  | one {key : String} {v : Json} {name front raw back : Bytes}
      (hkey : Padded (JsonString pairs key) name) (hfront : Spaces front) (hback : Spaces back)
      (h : JsonValue pairs v raw) :
      JsonMembers pairs [(key, v)] (name ++ colon :: (front ++ (raw ++ back)))
  | more {key : String} {v : Json} {members : List (String × Json)}
      {name front raw back raws : Bytes} (hkey : Padded (JsonString pairs key) name)
      (hfront : Spaces front) (hback : Spaces back) (h : JsonValue pairs v raw)
      (hrest : JsonMembers pairs members raws) :
      JsonMembers pairs ((key, v) :: members)
        (name ++ colon :: (front ++ (raw ++ back) ++ comma :: raws))

end

/-- A text that is an object. -/
def JsonObject (pairs : Bool) (members : List (String × Json)) (input : Bytes) : Prop :=
  Padded (JsonValue pairs (.object members)) input

/-! ### JSON in the reader's grammar -/

lemma utf8CharWidth_eq (b : UInt8) :
    utf8CharWidth b = if b.toNat ≤ 0x7F then 1
      else if 0xC0 ≤ b.toNat ∧ b.toNat ≤ 0xDF then 2
      else if 0xE0 ≤ b.toNat ∧ b.toNat ≤ 0xEF then 3
      else if 0xF0 ≤ b.toNat ∧ b.toNat ≤ 0xF7 then 4 else 1 := by
  simp only [utf8CharWidth, UInt8.le_iff_toNat_le]
  rfl

/-- The first byte of a character says how many it has, and is an ASCII byte only for itself. -/
lemma utf8EncodeChar_head (c : Char) :
    ∃ b tail, String.utf8EncodeChar c = b :: tail ∧ utf8CharWidth b = tail.length + 1 ∧
      (b.toNat = c.toNat ∨ 0xC0 ≤ b.toNat) := by
  have hvalid : c.val.toNat < 55296 ∨ 57343 < c.val.toNat ∧ c.val.toNat < 1114112 := c.valid
  have hc : c.toNat = c.val.toNat := rfl
  unfold String.utf8EncodeChar
  dsimp only
  rw [hc]
  generalize c.val.toNat = v at *
  split_ifs with h1 h2 h3
  · have ha : (UInt8.ofNat v).toNat = v := toNat_ofNat_of_lt (by omega)
    refine ⟨_, _, rfl, ?_, Or.inl ha⟩
    rw [utf8CharWidth_eq, ha, if_pos (by omega)]
    rfl
  · have ha : (UInt8.ofNat (v / 64 % 32 + 192)).toNat = v / 64 + 192 := by
      rw [toNat_ofNat_of_lt (by omega)]
      omega
    refine ⟨_, _, rfl, ?_, Or.inr (by rw [ha]; omega)⟩
    rw [utf8CharWidth_eq, ha, if_neg (by omega), if_pos (by omega)]
    rfl
  · have ha : (UInt8.ofNat (v / 4096 % 16 + 224)).toNat = v / 4096 + 224 := by
      rw [toNat_ofNat_of_lt (by omega)]
      omega
    refine ⟨_, _, rfl, ?_, Or.inr (by rw [ha]; omega)⟩
    rw [utf8CharWidth_eq, ha, if_neg (by omega), if_neg (by omega), if_pos (by omega)]
    rfl
  · have ha : (UInt8.ofNat (v / 262144 % 8 + 240)).toNat = v / 262144 + 240 := by
      rw [toNat_ofNat_of_lt (by omega)]
      omega
    refine ⟨_, _, rfl, ?_, Or.inr (by rw [ha]; omega)⟩
    rw [utf8CharWidth_eq, ha, if_neg (by omega), if_neg (by omega), if_neg (by omega),
      if_pos (by omega)]
    rfl

/-- An ASCII byte that is no first byte of a character stands for that character only. -/
lemma head_ne_of_ne {b : UInt8} {c d : Char} (h : b.toNat = c.toNat ∨ 0xC0 ≤ b.toNat) (hne : c ≠ d)
    (hd : d.toNat < 0x80) : b ≠ UInt8.ofNat d.toNat := by
  rintro rfl
  rw [toNat_ofNat_of_lt (by omega)] at h
  rcases h with h | h
  · exact hne (Char.toNat_inj.mp h.symm)
  · omega

lemma looseChars_of_json {out : List Char} {raw : Bytes} (h : JsonChars false out raw) :
    LooseChars out raw := by
  induction h with
  | nil => exact .nil
  | @char c out raw hcontrol hquote hback hrest ih =>
    obtain ⟨b, tail, hencode, hwidth, hhead⟩ := utf8EncodeChar_head c
    have htext : fromUtf8 (b :: tail) = some (String.singleton c) := by
      have hbytes := fromUtf8_utf8Bytes (String.singleton c)
      simpa [utf8Bytes, hencode] using hbytes
    rw [hencode]
    have hchar := LooseChars.char hwidth (head_ne_of_ne hhead hquote (by decide))
      (head_ne_of_ne hhead hback (by decide)) htext ih
    simpa using hchar
  | escape hescape hrest ih => exact .escape hescape ih
  | unicode hcode hchar hrest ih => exact .unicode hcode hchar ih
  | pair hpairs => cases hpairs

lemma looseString_of_json {text : String} {raw : Bytes} (h : JsonString false text raw) :
    LooseString text raw := by
  obtain ⟨out, chars, rfl, hchars, rfl⟩ := h
  exact ⟨out, chars, rfl, looseChars_of_json hchars, rfl⟩

lemma Padded.map {inner inner' : Bytes → Prop} {raw : Bytes} (h : Padded inner raw)
    (himp : ∀ value, inner value → inner' value) : Padded inner' raw := by
  obtain ⟨front, value, back, rfl, hfront, hback, hvalue⟩ := h
  exact ⟨front, value, back, rfl, hfront, hback, himp value hvalue⟩

/-- The bytes of literals and numbers. -/
def isAtomByte (b : UInt8) : Bool :=
  isDecimal b || 0x61 ≤ b && b ≤ 0x7A || b = 0x45 || b = 0x2B || b = 0x2D || b = 0x2E

lemma isAtomByte_of_isDecimal {b : UInt8} (h : isDecimal b = true) : isAtomByte b = true := by
  simp [isAtomByte, h]

lemma JsonNumber.bytes {raw : Bytes} (h : JsonNumber raw) :
    raw ≠ [] ∧ ∀ b ∈ raw, isAtomByte b = true := by
  obtain ⟨minus, int, frac, exp, rfl, hminus, hint, hfrac, hexp⟩ := h
  have hdecimals : ∀ {digits : Bytes}, Decimals digits → ∀ b ∈ digits, isAtomByte b = true :=
    fun h b hb => isAtomByte_of_isDecimal (h.2 b hb)
  have hone : ∀ b' : UInt8, isAtomByte b' = true → ∀ b ∈ [b'], isAtomByte b = true := by
    intro b' hb' b hb
    rwa [List.mem_singleton.mp hb]
  have hminus' : ∀ b ∈ minus, isAtomByte b = true := by
    rcases hminus with rfl | rfl
    · simp
    · exact hone _ (by decide)
  have hint' : int ≠ [] ∧ ∀ b ∈ int, isAtomByte b = true := by
    rcases hint with rfl | ⟨hdigits, -⟩
    · exact ⟨by simp, hone _ (by decide)⟩
    · exact ⟨hdigits.1, hdecimals hdigits⟩
  have hfrac' : ∀ b ∈ frac, isAtomByte b = true := by
    rcases hfrac with rfl | ⟨digits, rfl, hdigits⟩
    · simp
    · exact List.forall_mem_cons.mpr ⟨by decide, hdecimals hdigits⟩
  have hexp' : ∀ b ∈ exp, isAtomByte b = true := by
    rcases hexp with rfl | ⟨e, sign, digits, rfl, he, hsign, hdigits⟩
    · simp
    · refine List.forall_mem_cons.mpr ⟨?_, List.forall_mem_append.mpr ⟨?_, hdecimals hdigits⟩⟩
      · rcases he with rfl | rfl <;> decide
      · rcases hsign with rfl | rfl | rfl
        · simp
        · exact hone _ (by decide)
        · exact hone _ (by decide)
  refine ⟨by simp [hint'.1], ?_⟩
  exact List.forall_mem_append.mpr ⟨hminus', List.forall_mem_append.mpr ⟨hint'.2,
    List.forall_mem_append.mpr ⟨hfrac', hexp'⟩⟩⟩

lemma JsonAtom.bytes {raw : Bytes} (h : JsonAtom raw) :
    raw ≠ [] ∧ ∀ b ∈ raw, isAtomByte b = true := by
  rcases h with rfl | rfl | rfl | hnumber
  · decide
  · decide
  · decide
  · exact hnumber.bytes

/-- No bracket, quote, delimiter or space is a byte of a literal. -/
lemma not_special_of_isAtomByte {b : UInt8} (h : isAtomByte b = true) :
    b ≠ quote ∧ b ≠ lbracket ∧ b ≠ rbracket ∧ b ≠ lbrace ∧ b ≠ rbrace ∧ isDelimiter b = false := by
  have hne : ∀ b' : UInt8, isAtomByte b' = false → b ≠ b' := by
    rintro b' hb' rfl
    rw [h] at hb'
    cases hb'
  refine ⟨hne _ (by decide), hne _ (by decide), hne _ (by decide), hne _ (by decide),
    hne _ (by decide), ?_⟩
  have hspace : isSpace b = false := by
    simp [isSpace, hne 0x20 (by decide), hne 0x09 (by decide), hne 0x0A (by decide),
      hne 0x0D (by decide)]
  simp [isDelimiter, hspace, hne comma (by decide), hne rbrace (by decide),
    hne rbracket (by decide)]

section

variable {opening closing : UInt8}

/-- Brackets or braces. -/
def IsPair (opening closing : UInt8) : Prop :=
  opening = lbracket ∧ closing = rbracket ∨ opening = lbrace ∧ closing = rbrace

lemma Balanced.bytes {raw tail : Bytes} (hraw : ∀ b ∈ raw, b ≠ opening ∧ b ≠ closing ∧ b ≠ quote)
    (h : Balanced opening closing tail) : Balanced opening closing (raw ++ tail) := by
  induction raw with
  | nil => exact h
  | cons b raw ih =>
    obtain ⟨hopening, hclosing, hquote⟩ := hraw b List.mem_cons_self
    exact .byte hopening hclosing hquote (ih fun b hb => hraw b (List.mem_cons_of_mem _ hb))

lemma Balanced.atom (hpair : IsPair opening closing) {raw tail : Bytes} (hraw : JsonAtom raw)
    (h : Balanced opening closing tail) : Balanced opening closing (raw ++ tail) := by
  refine h.bytes fun b hb => ?_
  obtain ⟨hquote, h₁, h₂, h₃, h₄, -⟩ := not_special_of_isAtomByte (hraw.bytes.2 b hb)
  rcases hpair with ⟨rfl, rfl⟩ | ⟨rfl, rfl⟩
  · exact ⟨h₁, h₂, hquote⟩
  · exact ⟨h₃, h₄, hquote⟩

lemma Balanced.spaces (hpair : IsPair opening closing) {raw tail : Bytes} (hraw : Spaces raw)
    (h : Balanced opening closing tail) : Balanced opening closing (raw ++ tail) := by
  refine h.bytes fun b hb => ?_
  have hne : ∀ b' : UInt8, isSpace b' = false → b ≠ b' := by
    rintro b' hb' rfl
    rw [hraw b hb] at hb'
    cases hb'
  rcases hpair with ⟨rfl, rfl⟩ | ⟨rfl, rfl⟩
  · exact ⟨hne _ (by decide), hne _ (by decide), hne _ (by decide)⟩
  · exact ⟨hne _ (by decide), hne _ (by decide), hne _ (by decide)⟩

/-- A comma or a colon. -/
lemma Balanced.mark (hpair : IsPair opening closing) {b : UInt8} {tail : Bytes}
    (hb : b = comma ∨ b = colon) (h : Balanced opening closing tail) :
    Balanced opening closing (b :: tail) := by
  rcases hpair with ⟨rfl, rfl⟩ | ⟨rfl, rfl⟩ <;> rcases hb with rfl | rfl <;>
    exact .byte (by decide) (by decide) (by decide) h

/-- Something balanced between brackets of either kind. -/
lemma Balanced.enclosed (hpair : IsPair opening closing) {opening' closing' : UInt8}
    (hpair' : IsPair opening' closing') {inner tail : Bytes}
    (hinner : ∀ tail, Balanced opening closing tail → Balanced opening closing (inner ++ tail))
    (h : Balanced opening closing tail) :
    Balanced opening closing (opening' :: (inner ++ [closing']) ++ tail) := by
  rw [List.cons_append, List.append_assoc, List.singleton_append]
  have hsame : Balanced opening closing (opening :: (inner ++ closing :: tail)) := by
    have hwhole := hinner [] .nil
    rw [List.append_nil] at hwhole
    exact .nested hwhole h
  rcases hpair with ⟨rfl, rfl⟩ | ⟨rfl, rfl⟩ <;> rcases hpair' with ⟨rfl, rfl⟩ | ⟨rfl, rfl⟩
  · exact hsame
  · exact .byte (by decide) (by decide) (by decide)
      (hinner _ (.byte (by decide) (by decide) (by decide) h))
  · exact .byte (by decide) (by decide) (by decide)
      (hinner _ (.byte (by decide) (by decide) (by decide) h))
  · exact hsame

mutual

/-- Whatever a JSON value holds, its brackets are closed. -/
theorem balanced_value (hpair : IsPair opening closing) {v : Json} {raw : Bytes}
    (h : JsonValue false v raw) (tail : Bytes) (htail : Balanced opening closing tail) :
    Balanced opening closing (raw ++ tail) := by
  cases h with
  | string hstring => exact .string (looseString_of_json hstring) htail
  | atom hatom => exact htail.atom hpair hatom
  | emptyArray hspaces =>
    exact htail.enclosed hpair (Or.inl ⟨rfl, rfl⟩) fun tail h => h.spaces hpair hspaces
  | array hitems =>
    exact htail.enclosed hpair (Or.inl ⟨rfl, rfl⟩) fun tail h => balanced_elements hpair hitems tail h
  | emptyObject hspaces =>
    exact htail.enclosed hpair (Or.inr ⟨rfl, rfl⟩) fun tail h => h.spaces hpair hspaces
  | object hmembers =>
    exact htail.enclosed hpair (Or.inr ⟨rfl, rfl⟩) fun tail h => balanced_members hpair hmembers tail h

theorem balanced_elements (hpair : IsPair opening closing) {items : List Json} {raw : Bytes}
    (h : JsonElements false items raw) (tail : Bytes) (htail : Balanced opening closing tail) :
    Balanced opening closing (raw ++ tail) := by
  cases h with
  | one hfront hback hvalue =>
    rw [List.append_assoc, List.append_assoc]
    exact (balanced_value hpair hvalue _ (htail.spaces hpair hback)).spaces hpair hfront
  | more hfront hback hvalue hrest =>
    simp only [List.append_assoc, List.cons_append]
    have hrest' := balanced_elements hpair hrest tail htail
    exact (balanced_value hpair hvalue _
      ((hrest'.mark hpair (Or.inl rfl)).spaces hpair hback)).spaces hpair hfront

theorem balanced_members (hpair : IsPair opening closing) {members : List (String × Json)}
    {raw : Bytes} (h : JsonMembers false members raw) (tail : Bytes)
    (htail : Balanced opening closing tail) : Balanced opening closing (raw ++ tail) := by
  cases h with
  | one hkey hfront hback hvalue =>
    obtain ⟨kfront, name, kback, rfl, hkfront, hkback, hname⟩ := hkey
    simp only [List.append_assoc, List.cons_append]
    have hvalue' := (balanced_value hpair hvalue _ (htail.spaces hpair hback)).spaces hpair hfront
    exact (Balanced.string (looseString_of_json hname)
      ((hvalue'.mark hpair (Or.inr rfl)).spaces hpair hkback)).spaces hpair hkfront
  | more hkey hfront hback hvalue hrest =>
    obtain ⟨kfront, name, kback, rfl, hkfront, hkback, hname⟩ := hkey
    simp only [List.append_assoc, List.cons_append]
    have hrest' := (balanced_members hpair hrest tail htail).mark hpair (Or.inl rfl)
    have hvalue' := (balanced_value hpair hvalue _ (hrest'.spaces hpair hback)).spaces hpair hfront
    exact (Balanced.string (looseString_of_json hname)
      ((hvalue'.mark hpair (Or.inr rfl)).spaces hpair hkback)).spaces hpair hkfront

end

end

lemma balanced_inner {opening closing : UInt8} {inner : Bytes}
    (h : ∀ tail, Balanced opening closing tail → Balanced opening closing (inner ++ tail)) :
    Balanced opening closing inner := by
  have hinner := h [] .nil
  rwa [List.append_nil] at hinner

/-- A JSON value is one the reader steps past. -/
theorem looseValue_of_json {v : Json} {raw : Bytes} (h : JsonValue false v raw) :
    LooseValue v.text? raw := by
  cases h with
  | string hstring => exact .string (looseString_of_json hstring)
  | atom hatom =>
    obtain ⟨hne, hbytes⟩ := hatom.bytes
    cases raw with
    | nil => exact absurd rfl hne
    | cons b raw =>
      obtain ⟨hquote, hbracket, -, hbrace, -⟩ :=
        not_special_of_isAtomByte (hbytes b List.mem_cons_self)
      exact .literal hquote hbracket hbrace fun b' hb' =>
        (not_special_of_isAtomByte (hbytes b' hb')).2.2.2.2.2
  | emptyArray hspaces =>
    exact .array (balanced_inner fun tail h => h.spaces (Or.inl ⟨rfl, rfl⟩) hspaces)
  | array hitems => exact .array (balanced_inner (balanced_elements (Or.inl ⟨rfl, rfl⟩) hitems))
  | emptyObject hspaces =>
    exact .object (balanced_inner fun tail h => h.spaces (Or.inr ⟨rfl, rfl⟩) hspaces)
  | object hmembers => exact .object (balanced_inner (balanced_members (Or.inr ⟨rfl, rfl⟩) hmembers))

theorem looseItems_of_json {items : List Json} {raw : Bytes} (h : JsonElements false items raw) :
    LooseItems (items.filterMap Json.text?) raw := by
  cases h with
  | @one v front raw back hfront hback hvalue =>
    have hslot : LooseSlot v.text? (front ++ (raw ++ back)) :=
      Or.inl ⟨front, raw, back, rfl, hfront, hback, looseValue_of_json hvalue⟩
    have hitems := LooseItems.one hslot
    cases hv : v.text? <;> simpa [hv] using hitems
  | @more v items front raw back raws hfront hback hvalue hrest =>
    have hslot : LooseSlot v.text? (front ++ (raw ++ back)) :=
      Or.inl ⟨front, raw, back, rfl, hfront, hback, looseValue_of_json hvalue⟩
    have hitems := LooseItems.more hslot (looseItems_of_json hrest)
    cases hv : v.text? <;> simpa [hv] using hitems

lemma looseArray_of_json {items : List Json} {raw : Bytes} (h : JsonValue false (.array items) raw) :
    LooseArray (items.filterMap Json.text?) raw := by
  cases h with
  | @emptyArray inner hspaces => exact ⟨inner, rfl, .one (Or.inr ⟨hspaces, rfl⟩)⟩
  | @array _ inner hitems => exact ⟨inner, rfl, looseItems_of_json hitems⟩

/-! ### What a standard parser finds -/

/-- The value of a key; of members with one key the last counts. -/
def member? (key : String) (members : List (String × Json)) : Option Json :=
  ((members.filter fun member => member.1 = key).getLast?).map Prod.snd

def textUnder (key : String) (members : List (String × Json)) : Option String :=
  (member? key members).bind Json.text?

/-- The strings of the array under a key. -/
def textsUnder (key : String) (members : List (String × Json)) : List String :=
  match member? key members with
  | some (.array items) => items.filterMap Json.text?
  | _ => []

/-- The strings of the array under a key of the `pi` object. -/
def piTextsUnder (key : String) (members : List (String × Json)) : List String :=
  match member? "pi" members with
  | some (.object inner) => textsUnder key inner
  | _ => []

/-- Every `skills` and `prompts` is an array. -/
def PiTyped (members : List (String × Json)) : Prop :=
  ∀ member ∈ members, member.1 = "skills" ∨ member.1 = "prompts" → ∃ items, member.2 = .array items

/-- Every name, version and description is a string, and every `pi` an object with arrays. -/
def Typed (members : List (String × Json)) : Prop :=
  ∀ member ∈ members, (isTextKey member.1 → ∃ text, member.2 = .string text) ∧
    (member.1 = "pi" → ∃ inner, member.2 = .object inner ∧ PiTyped inner)

lemma member?_append (key : String) (members : List (String × Json)) (member : String × Json) :
    member? key (members ++ [member]) =
      if member.1 = key then some member.2 else member? key members := by
  by_cases h : member.1 = key <;> simp [member?, h]

/-! ### Members of a JSON object -/

/-- A member of JSON and the field the reader makes of it. -/
structure PiRead where
  key : String
  value : Json
  field : PiField

structure PiRead.Ok (r : PiRead) : Prop where
  paths : r.key = "skills" ∨ r.key = "prompts" →
    ∃ items, r.value = .array items ∧ r.field = .paths (items.filterMap Json.text?)
  passed : ¬(r.key = "skills" ∨ r.key = "prompts") → ∃ kind, r.field = .passed kind

lemma piSlot_of_json {key : String} {v : Json} {front raw back : Bytes} (hfront : Spaces front)
    (hback : Spaces back) (h : JsonValue false v raw)
    (htyped : key = "skills" ∨ key = "prompts" → ∃ items, v = .array items) :
    ∃ field, PiField.Slot key field (front ++ (raw ++ back)) ∧ PiRead.Ok ⟨key, v, field⟩ := by
  by_cases hkey : key = "skills" ∨ key = "prompts"
  · obtain ⟨items, rfl⟩ := htyped hkey
    exact ⟨.paths (items.filterMap Json.text?),
      ⟨hkey, front, raw, back, rfl, hfront, hback, looseArray_of_json h⟩,
      fun _ => ⟨items, rfl, rfl⟩, fun hnot => absurd hkey hnot⟩
  · exact ⟨.passed (valueKind (front ++ (raw ++ back))),
      ⟨hkey, ⟨v.text?, Or.inl ⟨front, raw, back, rfl, hfront, hback, looseValue_of_json h⟩⟩, rfl⟩,
      fun hkey' => absurd hkey' hkey, fun _ => ⟨_, rfl⟩⟩

theorem piMembers_of_json {members : List (String × Json)} {raw : Bytes}
    (h : JsonMembers false members raw) (htyped : PiTyped members) :
    ∃ reads : List PiRead, (∀ r ∈ reads, r.Ok) ∧ members = reads.map (fun r => (r.key, r.value)) ∧
      LooseMembers PiField.Slot (reads.map fun r => (r.key, r.field)) raw := by
  cases h with
  | @one key v name front raw back hkey hfront hback hvalue =>
    obtain ⟨field, hslot, hok⟩ :=
      piSlot_of_json hfront hback hvalue (htyped (key, v) List.mem_cons_self)
    exact ⟨[⟨key, v, field⟩], by simpa using hok, rfl,
      .one (hkey.map fun _ => looseString_of_json) hslot⟩
  | @more key v members name front raw back raws hkey hfront hback hvalue hrest =>
    obtain ⟨field, hslot, hok⟩ :=
      piSlot_of_json hfront hback hvalue (htyped (key, v) List.mem_cons_self)
    obtain ⟨reads, hreads, rfl, hmembers⟩ :=
      piMembers_of_json hrest fun member hmember => htyped member (List.mem_cons_of_mem _ hmember)
    exact ⟨⟨key, v, field⟩ :: reads, List.forall_mem_cons.mpr ⟨hok, hreads⟩, rfl,
      .more (hkey.map fun _ => looseString_of_json) hslot hmembers⟩

/-- What the members of a `pi` object leave of a manifest. -/
theorem piFold {reads : List PiRead} (hreads : ∀ r ∈ reads, r.Ok) (s : Parse) :
    let s' := (reads.map fun r => (r.key, r.field)).foldl PiField.apply s
    let members := reads.map fun r => (r.key, r.value)
    s'.manifest.name = s.manifest.name ∧ s'.manifest.version = s.manifest.version ∧
      s'.manifest.description = s.manifest.description ∧
      s'.manifest.skillPaths = (if (member? "skills" members).isSome
        then textsUnder "skills" members else s.manifest.skillPaths) ∧
      s'.manifest.promptPaths = (if (member? "prompts" members).isSome
        then textsUnder "prompts" members else s.manifest.promptPaths) := by
  induction reads using List.reverseRecOn with
  | nil => exact ⟨rfl, rfl, rfl, rfl, rfl⟩
  | append_singleton reads r ih =>
    obtain ⟨hname, hversion, hdescription, hskills, hprompts⟩ :=
      ih fun r' hr' => hreads r' (List.mem_append_left _ hr')
    have hok := hreads r (List.mem_append_right _ (List.mem_singleton_self r))
    obtain ⟨key, value, field⟩ := r
    simp only [List.map_append, List.map_cons, List.map_nil, List.foldl_append, List.foldl_cons,
      List.foldl_nil, member?_append, textsUnder]
    simp only [textsUnder] at hskills hprompts
    by_cases hs : key = "skills"
    · obtain ⟨items, hvalue, hfield⟩ := hok.paths (Or.inl hs)
      dsimp only at hvalue hfield
      subst hs hvalue hfield
      refine ⟨hname, hversion, hdescription, ?_, ?_⟩
      · simp [PiField.apply, Parse.setSkillPaths]
      · simpa [PiField.apply, Parse.setSkillPaths] using hprompts
    · by_cases hp : key = "prompts"
      · obtain ⟨items, hvalue, hfield⟩ := hok.paths (Or.inr hp)
        dsimp only at hvalue hfield
        subst hp hvalue hfield
        refine ⟨hname, hversion, hdescription, ?_, ?_⟩
        · simpa [PiField.apply, Parse.setPromptPaths] using hskills
        · simp [PiField.apply, Parse.setPromptPaths]
      · obtain ⟨kind, hfield⟩ := hok.passed (not_or.mpr ⟨hs, hp⟩)
        dsimp only at hfield
        subst hfield
        refine ⟨hname, hversion, hdescription, ?_, ?_⟩
        · simpa [PiField.apply, Parse.warn, hs] using hskills
        · simpa [PiField.apply, Parse.warn, hp] using hprompts

structure TopRead where
  key : String
  value : Json
  field : TopField

structure TopRead.Ok (r : TopRead) : Prop where
  text : isTextKey r.key → ∃ text, r.value = .string text ∧ r.field = .text text
  pi : r.key = "pi" → ∃ reads : List PiRead, (∀ r ∈ reads, r.Ok) ∧
    r.value = .object (reads.map fun r => (r.key, r.value)) ∧
    r.field = .pi (reads.map fun r => (r.key, r.field))
  other : ¬isTextKey r.key → r.key ≠ "pi" →
    (∃ texts, r.field = .entries texts) ∨ r.field = .passed

lemma piObject_of_json {inner : List (String × Json)} {raw : Bytes}
    (h : JsonValue false (.object inner) raw) (htyped : PiTyped inner) :
    ∃ reads : List PiRead, (∀ r ∈ reads, r.Ok) ∧ inner = reads.map (fun r => (r.key, r.value)) ∧
      LooseObject PiField.Slot (reads.map fun r => (r.key, r.field)) raw := by
  cases h with
  | @emptyObject inside hspaces =>
    exact ⟨[], by simp, rfl, inside, rfl, Or.inl ⟨hspaces, rfl⟩⟩
  | @object _ inside hmembers =>
    obtain ⟨reads, hreads, hinner, hloose⟩ := piMembers_of_json hmembers htyped
    exact ⟨reads, hreads, hinner, inside, rfl, Or.inr hloose⟩

lemma valueKind_value {v : Json} {front raw back : Bytes} (hfront : Spaces front)
    (h : JsonValue false v raw) (hkind : valueKind (front ++ (raw ++ back)) = .array) :
    ∃ items, v = .array items := by
  rw [valueKind_spaces hfront] at hkind
  cases h with
  | string hstring =>
    obtain ⟨out, chars, rfl, -⟩ := hstring
    cases hkind
  | atom hatom =>
    obtain ⟨hne, hbytes⟩ := hatom.bytes
    cases raw with
    | nil => exact absurd rfl hne
    | cons b raw =>
      obtain ⟨hquote, hbracket, -, hbrace, -, hdelimiter⟩ :=
        not_special_of_isAtomByte (hbytes b List.mem_cons_self)
      have hspace : isSpace b = false := by
        simp only [isDelimiter, Bool.or_eq_false_iff] at hdelimiter
        exact hdelimiter.2
      rw [List.cons_append, valueKind, hspace, if_neg Bool.false_ne_true, if_neg hquote,
        if_neg hbracket, if_neg hbrace] at hkind
      split_ifs at hkind
  | emptyArray => exact ⟨_, rfl⟩
  | array => exact ⟨_, rfl⟩
  | emptyObject => cases hkind
  | object => cases hkind

lemma topSlot_of_json {key : String} {v : Json} {front raw back : Bytes} (hfront : Spaces front)
    (hback : Spaces back) (h : JsonValue false v raw)
    (htext : isTextKey key → ∃ text, v = .string text)
    (hpi : key = "pi" → ∃ inner, v = .object inner ∧ PiTyped inner) :
    ∃ field, TopField.Slot key field (front ++ (raw ++ back)) ∧ TopRead.Ok ⟨key, v, field⟩ := by
  have hpiText : key = "pi" → ¬isTextKey key := by
    rintro rfl
    simp [isTextKey]
  by_cases hkey : isTextKey key
  · obtain ⟨text, rfl⟩ := htext hkey
    cases h with
    | string hstring =>
      exact ⟨.text text,
        ⟨hkey, front, raw, back, rfl, hfront, hback, looseString_of_json hstring⟩,
        fun _ => ⟨text, rfl, rfl⟩, fun heq => absurd hkey (hpiText heq), fun hnot => absurd hkey hnot⟩
  · by_cases hkeyPi : key = "pi"
    · obtain ⟨inner, rfl, htyped⟩ := hpi hkeyPi
      obtain ⟨reads, hreads, rfl, hloose⟩ := piObject_of_json h htyped
      exact ⟨.pi (reads.map fun r => (r.key, r.field)),
        ⟨hkeyPi, front, raw, back, rfl, hfront, hback, hloose⟩,
        fun htext => absurd htext hkey, fun _ => ⟨reads, hreads, rfl, rfl⟩,
        fun _ hne => absurd hkeyPi hne⟩
    · have hslot : LooseSlot v.text? (front ++ (raw ++ back)) :=
        Or.inl ⟨front, raw, back, rfl, hfront, hback, looseValue_of_json h⟩
      by_cases harray : key = "extensions" ∧ valueKind (front ++ (raw ++ back)) = .array
      · obtain ⟨items, rfl⟩ := valueKind_value hfront h harray.2
        exact ⟨.entries (items.filterMap Json.text?),
          ⟨harray.1, front, raw, back, rfl, hfront, hback, looseArray_of_json h⟩,
          fun htext => absurd htext hkey, fun heq => absurd heq hkeyPi,
          fun _ _ => Or.inl ⟨_, rfl⟩⟩
      · exact ⟨.passed, ⟨hkey, hkeyPi, ⟨_, hslot⟩, fun heq hkind => harray ⟨heq, hkind⟩⟩,
          fun htext => absurd htext hkey, fun heq => absurd heq hkeyPi, fun _ _ => Or.inr rfl⟩

theorem topMembers_of_json {members : List (String × Json)} {raw : Bytes}
    (h : JsonMembers false members raw) (htyped : Typed members) :
    ∃ reads : List TopRead, (∀ r ∈ reads, r.Ok) ∧ members = reads.map (fun r => (r.key, r.value)) ∧
      LooseMembers TopField.Slot (reads.map fun r => (r.key, r.field)) raw := by
  cases h with
  | @one key v name front raw back hkey hfront hback hvalue =>
    obtain ⟨htext, hpi⟩ := htyped (key, v) List.mem_cons_self
    obtain ⟨field, hslot, hok⟩ := topSlot_of_json hfront hback hvalue htext hpi
    exact ⟨[⟨key, v, field⟩], by simpa using hok, rfl,
      .one (hkey.map fun _ => looseString_of_json) hslot⟩
  | @more key v members name front raw back raws hkey hfront hback hvalue hrest =>
    obtain ⟨htext, hpi⟩ := htyped (key, v) List.mem_cons_self
    obtain ⟨field, hslot, hok⟩ := topSlot_of_json hfront hback hvalue htext hpi
    obtain ⟨reads, hreads, rfl, hmembers⟩ :=
      topMembers_of_json hrest fun member hmember => htyped member (List.mem_cons_of_mem _ hmember)
    exact ⟨⟨key, v, field⟩ :: reads, List.forall_mem_cons.mpr ⟨hok, hreads⟩, rfl,
      .more (hkey.map fun _ => looseString_of_json) hslot hmembers⟩

/-- What a standard parser finds, as a manifest's fields. -/
structure Finds (manifest : Manifest) (members : List (String × Json)) : Prop where
  name : manifest.name = textUnder "name" members
  version : manifest.version = textUnder "version" members
  description : manifest.description = textUnder "description" members
  skills : manifest.skillPaths = piTextsUnder "skills" members
  prompts : manifest.promptPaths = piTextsUnder "prompts" members

lemma member?_eq_none {key : String} {members : List (String × Json)}
    (h : members.filter (fun member => member.1 = key) = []) : member? key members = none := by
  rw [member?, h]
  rfl

/-- **What the members of an object leave of a manifest** is what a standard parser finds. -/
theorem topFold {reads : List TopRead} (hreads : ∀ r ∈ reads, r.Ok)
    (hone : ((reads.map fun r => (r.key, r.value)).filter fun m => m.1 = "pi").length ≤ 1) :
    Finds ((reads.map fun r => (r.key, r.field)).foldl TopField.apply Parse.start).manifest
      (reads.map fun r => (r.key, r.value)) := by
  induction reads using List.reverseRecOn with
  | nil => exact ⟨rfl, rfl, rfl, rfl, rfl⟩
  | append_singleton reads r ih =>
    rw [List.map_append, List.filter_append, List.length_append] at hone
    have hfinds := ih (fun r' hr' => hreads r' (List.mem_append_left _ hr')) (by omega)
    have hok := hreads r (List.mem_append_right _ (List.mem_singleton_self r))
    obtain ⟨key, value, field⟩ := r
    rw [List.map_append, List.map_append, List.foldl_append]
    set s := (reads.map fun r => (r.key, r.field)).foldl TopField.apply Parse.start
    set members := reads.map fun r => (r.key, r.value)
    show Finds (TopField.apply s (key, field)).manifest (members ++ [(key, value)])
    by_cases htext : isTextKey key
    · obtain ⟨text, hvalue, hfield⟩ := hok.text htext
      dsimp only at hvalue hfield
      subst hvalue hfield
      have hpi : key ≠ "pi" := by
        rintro rfl
        simp [isTextKey] at htext
      rcases htext with rfl | rfl | rfl <;>
        constructor <;>
        simp [TopField.apply, Parse.setName, Parse.setVersion, Parse.setDescription, textUnder,
          piTextsUnder, member?_append, Json.text?] <;>
        first
        | exact hfinds.name
        | exact hfinds.version
        | exact hfinds.description
        | exact hfinds.skills
        | exact hfinds.prompts
    · have hkeys : key ≠ "name" ∧ key ≠ "version" ∧ key ≠ "description" := by
        simpa [isTextKey] using htext
      by_cases hpi : key = "pi"
      · obtain ⟨inner, hinner, hvalue, hfield⟩ := hok.pi hpi
        dsimp only at hvalue hfield
        subst hpi hvalue hfield
        have hnone : member? "pi" members = none := by
          refine member?_eq_none (List.length_eq_zero_iff.mp ?_)
          simp only [List.map_cons, List.map_nil, List.filter_cons, decide_true, if_true,
            List.filter_nil, List.length_singleton] at hone
          omega
        obtain ⟨hname, hversion, hdescription, hskills, hprompts⟩ := piFold hinner s
        have hempty : ∀ {paths : List String} {key : String}, paths = piTextsUnder key members →
            paths = [] := by
          intro paths key hpaths
          rw [hpaths, piTextsUnder, hnone]
        have htexts : ∀ (key : String) (paths : List String), paths = [] →
            (if (member? key (inner.map fun r => (r.key, r.value))).isSome
              then textsUnder key (inner.map fun r => (r.key, r.value)) else paths) =
              textsUnder key (inner.map fun r => (r.key, r.value)) := by
          rintro key _ rfl
          cases hmember : member? key (inner.map fun r => (r.key, r.value)) with
          | none => simp [textsUnder, hmember]
          | some v => rfl
        constructor
        · refine (hname.trans hfinds.name).trans ?_
          rw [textUnder, textUnder, member?_append, if_neg hkeys.1]
        · refine (hversion.trans hfinds.version).trans ?_
          rw [textUnder, textUnder, member?_append, if_neg hkeys.2.1]
        · refine (hdescription.trans hfinds.description).trans ?_
          rw [textUnder, textUnder, member?_append, if_neg hkeys.2.2]
        · refine (hskills.trans (htexts _ _ (hempty hfinds.skills))).trans ?_
          simp [piTextsUnder, member?_append]
        · refine (hprompts.trans (htexts _ _ (hempty hfinds.prompts))).trans ?_
          simp [piTextsUnder, member?_append]
      · have hkept : (TopField.apply s (key, field)).manifest.name = s.manifest.name ∧
            (TopField.apply s (key, field)).manifest.version = s.manifest.version ∧
            (TopField.apply s (key, field)).manifest.description = s.manifest.description ∧
            (TopField.apply s (key, field)).manifest.skillPaths = s.manifest.skillPaths ∧
            (TopField.apply s (key, field)).manifest.promptPaths = s.manifest.promptPaths := by
          rcases hok.other htext hpi with ⟨texts, hfield⟩ | hfield
          · dsimp only at hfield
            subst hfield
            exact ⟨rfl, rfl, rfl, rfl, rfl⟩
          · dsimp only at hfield
            subst hfield
            by_cases hextensions : key = "extensions" <;>
              simp [TopField.apply, Parse.warn, hextensions]
        obtain ⟨hname, hversion, hdescription, hskills, hprompts⟩ := hkept
        constructor
        · rw [hname, hfinds.name, textUnder, textUnder, member?_append, if_neg hkeys.1]
        · rw [hversion, hfinds.version, textUnder, textUnder, member?_append, if_neg hkeys.2.1]
        · rw [hdescription, hfinds.description, textUnder, textUnder, member?_append,
            if_neg hkeys.2.2]
        · rw [hskills, hfinds.skills, piTextsUnder, piTextsUnder, member?_append, if_neg hpi]
        · rw [hprompts, hfinds.prompts, piTextsUnder, piTextsUnder, member?_append, if_neg hpi]

/-- The object of a text is in the reader's grammar, with what a standard parser finds in it. -/
lemma exists_reads {members : List (String × Json)} {input : Bytes}
    (h : JsonObject false members input) (htyped : Typed members) :
    ∃ reads : List TopRead, (∀ r ∈ reads, r.Ok) ∧ members = reads.map (fun r => (r.key, r.value)) ∧
      ∃ raw rest, input.dropWhile isSpace = raw ++ rest ∧
        LooseObject TopField.Slot (reads.map fun r => (r.key, r.field)) raw := by
  obtain ⟨front, value, back, rfl, hfront, hback, hobject⟩ := h
  cases hobject with
  | @emptyObject inner hspaces =>
    refine ⟨[], by simp, rfl, lbrace :: (inner ++ [rbrace]), back, ?_, inner, rfl, Or.inl ⟨hspaces, rfl⟩⟩
    rw [hfront.dropWhile]
    exact dropWhile_of_not_space (by decide) _
  | @object _ inner hmembers =>
    obtain ⟨reads, hreads, hvalues, hloose⟩ := topMembers_of_json hmembers htyped
    refine ⟨reads, hreads, hvalues, lbrace :: (inner ++ [rbrace]), back, ?_, inner, rfl,
      Or.inr hloose⟩
    rw [hfront.dropWhile]
    exact dropWhile_of_not_space (by decide) _

/-- **The manifest reader on JSON, on other texts, and on every input.** -/
theorem manifest_reads_json (text path : String) :
    (∀ members, JsonObject false members (utf8Bytes text.toList) → Typed members →
      (members.filter fun member => member.1 = "pi").length ≤ 1 →
        ¬ (parseText text path).Malformed ∧ Finds (parseText text path).manifest members) ∧
      ((¬ ∃ members, JsonObject true members (utf8Bytes text.toList)) →
        ((parseText text path).Malformed ↔ ¬ Lenient (utf8Bytes text.toList))) ∧
      (parseTopLevel Parse.start ⟨0, utf8Bytes text.toList⟩).2.final.pos ≤
        (utf8Bytes text.toList).length := by
  refine ⟨fun members hjson htyped hone => ?_, fun _ => malformed_iff text path, ?_⟩
  · obtain ⟨reads, hreads, rfl, raw, rest, hrest, hloose⟩ := exists_reads hjson htyped
    refine ⟨fun hmalformed => (malformed_iff text path).mp hmalformed ⟨_, raw, rest, hrest, hloose⟩, ?_⟩
    rw [parseText_complete hloose path hrest]
    exact topFold hreads hone
  · have hpos := pos_add_length_of_parseTopLevel Parse.start (utf8Bytes text.toList)
    omega

/-- A text that goes on behind its object is no JSON text, and is not reported. -/
theorem manifest_takes_more :
    (¬ ∃ members, JsonObject true members (utf8Bytes "\x7b\x7dx".toList)) ∧
      ¬ (parseText "\x7b\x7dx" "package.json").Malformed := by
  constructor
  · rintro ⟨members, front, value, back, hinput, -, hback, hobject⟩
    have hlast : (utf8Bytes "\x7b\x7dx".toList).getLast? = some 0x78 := by decide +kernel
    rw [hinput, ← List.append_assoc] at hlast
    cases back using List.reverseRecOn with
    | nil =>
      rw [List.append_nil] at hlast
      cases hobject with
      | emptyObject =>
        rw [← List.cons_append, ← List.append_assoc, List.getLast?_concat] at hlast
        exact absurd hlast (by decide)
      | object =>
        rw [← List.cons_append, ← List.append_assoc, List.getLast?_concat] at hlast
        exact absurd hlast (by decide)
    | append_singleton back b =>
      rw [← List.append_assoc, List.getLast?_concat] at hlast
      have hspace := hback b (List.mem_append_right _ (List.mem_singleton_self b))
      rw [Option.some.inj hlast] at hspace
      exact absurd hspace (by decide)
  · have hparse : (parseText "\x7b\x7dx" "package.json").warnings = [] := by decide +kernel
    rintro ⟨w, hw, -⟩
    rw [hparse] at hw
    cases hw

end Rupi.Package
