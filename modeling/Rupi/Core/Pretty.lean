import Rupi.Core.Encode
import Rupi.Core.Texts

/-!
The pretty JSON text of a tree.

- `Value.pretty`: the text `serde_json::to_string_pretty` writes.
- `quoted_append_inj`: a string literal ends where it ends.
- `Value.pretty_injective`: a tree without fractions is told by its text.
-/

namespace Rupi

namespace Value

/-- The indentation of a level. -/
def indent (level : Nat) : List Char := List.replicate (2 * level) ' '

mutual

/-- The text of a tree whose own lines are at a level. -/
def prettyAt (level : Nat) : Value → List Char
  | array [] => "[]".toList
  | array (item :: items) =>
    '[' :: '\n' :: (indent (level + 1) ++ (prettyAt (level + 1) item ++
      (prettyItems (level + 1) items ++ '\n' :: (indent level ++ [']']))))
  | object [] => "\x7b\x7d".toList
  | object ((key, value) :: fields) =>
    '\x7b' :: '\n' :: (indent (level + 1) ++ (quoted key ++ ':' :: ' ' ::
      (prettyAt (level + 1) value ++
        (prettyFields (level + 1) fields ++ '\n' :: (indent level ++ ['\x7d'])))))
  | value => value.print

def prettyItems (level : Nat) : List Value → List Char
  | [] => []
  | item :: items =>
    ',' :: '\n' :: (indent level ++ (prettyAt level item ++ prettyItems level items))

def prettyFields (level : Nat) : List (String × Value) → List Char
  | [] => []
  | (key, value) :: fields =>
    ',' :: '\n' :: (indent level ++ (quoted key ++ ':' :: ' ' ::
      (prettyAt level value ++ prettyFields level fields)))

end

/-- `serde_json::to_string_pretty`. -/
def pretty (value : Value) : String := String.ofList (value.prettyAt 0)

mutual

/-- A tree without fractions. -/
def integral : Value → Bool
  | float _ => false
  | array items => integralItems items
  | object fields => integralFields fields
  | _ => true

def integralItems : List Value → Bool
  | [] => true
  | item :: items => item.integral && integralItems items

def integralFields : List (String × Value) → Bool
  | [] => true
  | (_, value) :: fields => value.integral && integralFields fields

end

end Value

/-! ### String literals -/

/-- The value of a hexadecimal digit. -/
def hexValue (c : Char) : Nat := if c.isDigit then c.toNat - 48 else c.toNat - 87

/-- The first symbol of what is left of a string literal. -/
def readEscaped : List Char → Option (Char × List Char)
  | '\\' :: '"' :: rest => some ('"', rest)
  | '\\' :: '\\' :: rest => some ('\\', rest)
  | '\\' :: 'n' :: rest => some ('\n', rest)
  | '\\' :: 'r' :: rest => some ('\r', rest)
  | '\\' :: 't' :: rest => some ('\t', rest)
  | '\\' :: 'b' :: rest => some (Char.ofNat 8, rest)
  | '\\' :: 'f' :: rest => some (Char.ofNat 12, rest)
  | '\\' :: 'u' :: '0' :: '0' :: high :: low :: rest =>
    some (Char.ofNat (16 * hexValue high + hexValue low), rest)
  | '"' :: _ => none
  | c :: rest => some (c, rest)
  | [] => none

lemma hexValue_hexDigit : ∀ n, n < 16 → hexValue (hexDigit n) = n := by decide

/-- The escape of a symbol is read back. -/
lemma readEscaped_escapeChar (c : Char) (rest : List Char) :
    readEscaped (escapeChar c ++ rest) = some (c, rest) := by
  unfold escapeChar
  split_ifs with hquote hslash hnl hcr htab hback hfeed hcontrol
  · rw [hquote]; rfl
  · rw [hslash]; rfl
  · rw [hnl]; rfl
  · rw [hcr]; rfl
  · rw [htab]; rfl
  · rw [← Char.ofNat_toNat c, hback]; rfl
  · rw [← Char.ofNat_toNat c, hfeed]; rfl
  · have hhigh := hexValue_hexDigit (c.toNat / 16) (by omega)
    have hlow := hexValue_hexDigit (c.toNat % 16) (by omega)
    have hchar : Char.ofNat (16 * (c.toNat / 16) + c.toNat % 16) = c := by
      rw [Nat.div_add_mod, Char.ofNat_toNat]
    simp only [List.cons_append, List.nil_append, readEscaped, hhigh, hlow, hchar]
  · rw [List.singleton_append, readEscaped]
    all_goals simp_all

/-- A string literal ends at its own quote. -/
lemma quoted_append_inj {s t : String} {rest rest' : List Char}
    (h : quoted s ++ rest = quoted t ++ rest') : s = t ∧ rest = rest' := by
  have hbody : ∀ a b : List Char, a.flatMap escapeChar ++ '"' :: rest =
      b.flatMap escapeChar ++ '"' :: rest' → a = b ∧ rest = rest' := by
    intro a
    induction a with
    | nil =>
      intro b heq
      cases b with
      | nil => exact ⟨rfl, by simpa using heq⟩
      | cons d b =>
        have hread := congrArg readEscaped heq
        rw [List.flatMap_cons, List.append_assoc, readEscaped_escapeChar] at hread
        exact absurd hread (by simp [readEscaped])
    | cons c a ih =>
      intro b heq
      cases b with
      | nil =>
        have hread := congrArg readEscaped heq
        rw [List.flatMap_cons, List.append_assoc, readEscaped_escapeChar] at hread
        exact absurd hread (by simp [readEscaped])
      | cons d b =>
        have hread := congrArg readEscaped heq
        rw [List.flatMap_cons, List.flatMap_cons, List.append_assoc, List.append_assoc,
          readEscaped_escapeChar, readEscaped_escapeChar, Option.some.injEq,
          Prod.mk.injEq] at hread
        obtain ⟨rfl, htail⟩ := hread
        obtain ⟨rfl, hrest⟩ := ih b htail
        exact ⟨rfl, hrest⟩
  have htail : s.toList.flatMap escapeChar ++ '"' :: rest =
      t.toList.flatMap escapeChar ++ '"' :: rest' := by simpa [quoted] using h
  obtain ⟨hlist, hrest⟩ := hbody s.toList t.toList htail
  exact ⟨String.toList_injective hlist, hrest⟩

/-! ### A tree is told by its text -/

namespace Value

/-- The kinds of a tree, as the first symbol of its text tells them apart. -/
def kind : Value → Nat
  | null => 0
  | bool true => 1
  | bool false => 2
  | int _ => 3
  | string _ => 4
  | array _ => 5
  | object _ => 6
  | float _ => 7

def kindOfLead (c : Char) : Nat :=
  if c = 'n' then 0 else if c = 't' then 1 else if c = 'f' then 2 else if c = '"' then 4
  else if c = '[' then 5 else if c = '{' then 6 else 3

/-- The symbols of an integer. -/
def isIntegerChar (c : Char) : Bool := c.isDigit || c == '-'

lemma integer_ne_nil_and_all (n : Int) :
    (int n).print ≠ [] ∧ ∀ c ∈ (int n).print, isIntegerChar c = true := by
  have hdigit : ∀ (m : Nat), ∀ c ∈ m.repr.toList, isIntegerChar c = true := by
    intro m c hc
    rw [Nat.toList_repr] at hc
    rw [isIntegerChar, Nat.isDigit_of_mem_toDigits (by decide) (by decide) hc]
    rfl
  cases n with
  | ofNat m =>
    refine ⟨?_, hdigit m⟩
    rw [print, Nat.toList_repr]
    exact Nat.toDigits_ne_nil
  | negSucc m =>
    refine ⟨by simp [print], fun c hc => ?_⟩
    rcases List.mem_cons.1 hc with rfl | hc
    · rfl
    · exact hdigit (m + 1) c hc

lemma integer_injective {m n : Int} (h : (int m).print = (int n).print) : m = n := by
  have hsign : ∀ a b : Nat, a.repr.toList ≠ '-' :: b.repr.toList := by
    intro a b heq
    have hmem : '-' ∈ Nat.toDigits 10 a := by
      rw [← Nat.toList_repr, heq]
      exact List.mem_cons_self
    exact absurd (Nat.isDigit_of_mem_toDigits (by decide) (by decide) hmem) (by decide)
  cases m with
  | ofNat a =>
    cases n with
    | ofNat b => rw [repr_injective (String.toList_injective h)]
    | negSucc b => exact absurd h (hsign a (b + 1))
  | negSucc a =>
    cases n with
    | ofNat b => exact absurd h.symm (hsign b (a + 1))
    | negSucc b =>
      have heq := repr_injective (String.toList_injective (List.cons.inj h).2)
      rw [Nat.add_right_cancel heq]

/-- The first symbol tells the kind. -/
lemma exists_lead (level : Nat) (value : Value) (h : value.integral = true) :
    ∃ c rest, value.prettyAt level = c :: rest ∧ kindOfLead c = value.kind := by
  cases value with
  | null => exact ⟨'n', "ull".toList, rfl, rfl⟩
  | bool b => cases b <;> exact ⟨_, _, rfl, rfl⟩
  | int n =>
    obtain ⟨hne, hall⟩ := integer_ne_nil_and_all n
    obtain ⟨c, rest, hprint⟩ := List.exists_cons_of_ne_nil hne
    have hc := hall c (by rw [hprint]; exact List.mem_cons_self)
    refine ⟨c, rest, hprint, ?_⟩
    have hother : ∀ d, isIntegerChar d = false → c ≠ d := fun d hd heq => by
      rw [← heq, hc] at hd
      cases hd
    rw [kindOfLead, if_neg (hother _ rfl), if_neg (hother _ rfl), if_neg (hother _ rfl),
      if_neg (hother _ rfl), if_neg (hother _ rfl), if_neg (hother _ rfl)]
    rfl
  | float literal => exact absurd h (by simp [integral])
  | string text => exact ⟨_, _, rfl, rfl⟩
  | array items => cases items <;> exact ⟨_, _, rfl, rfl⟩
  | object fields =>
    cases fields with
    | nil => exact ⟨_, _, rfl, rfl⟩
    | cons field fields => exact ⟨_, _, rfl, rfl⟩

/-- What may follow the text of a tree. -/
def Follows (rest : List Char) : Prop := ∀ c ∈ rest.head?, c = ',' ∨ c = '
'

lemma follows_nil : Follows [] := by simp [Follows]

lemma follows_newline (rest : List Char) : Follows ('
' :: rest) := by simp [Follows]

lemma follows_items (level : Nat) (items : List Value) (rest : List Char) :
    Follows (prettyItems level items ++ '
' :: rest) := by
  cases items <;> simp [Follows, prettyItems]

lemma follows_fields (level : Nat) (fields : List (String × Value)) (rest : List Char) :
    Follows (prettyFields level fields ++ '
' :: rest) := by
  rcases fields with - | ⟨⟨key, value⟩, fields⟩ <;> simp [Follows, prettyFields]

lemma takeWhile_integer {text rest : List Char} (htext : ∀ c ∈ text, isIntegerChar c = true)
    (hrest : Follows rest) : (text ++ rest).takeWhile isIntegerChar = text := by
  rw [List.takeWhile_append_of_pos htext]
  cases rest with
  | nil => simp
  | cons c rest =>
    have hc : isIntegerChar c = false := by
      rcases hrest c rfl with rfl | rfl <;> rfl
    simp [hc]

lemma kind_eq {level : Nat} {value other : Value} {rest rest' : List Char}
    (hvalue : value.integral = true) (hother : other.integral = true)
    (h : value.prettyAt level ++ rest = other.prettyAt level ++ rest') :
    value.kind = other.kind := by
  obtain ⟨c, tail, htext, hc⟩ := exists_lead level value hvalue
  obtain ⟨d, tail', htext', hd⟩ := exists_lead level other hother
  rw [htext, htext'] at h
  rw [← hc, ← hd, (List.cons.inj h).1]

/-- A tree without parts is told by its text. -/
lemma leaf_append_inj {level : Nat} {value other : Value} {rest rest' : List Char}
    (hleaf : value.kind < 5) (hkind : value.kind = other.kind) (hrest : Follows rest)
    (hrest' : Follows rest')
    (h : value.prettyAt level ++ rest = other.prettyAt level ++ rest') :
    value = other ∧ rest = rest' := by
  cases value with
  | null =>
    cases other with
    | null => exact ⟨rfl, List.append_cancel_left h⟩
    | bool b => cases b <;> simp [kind] at hkind
    | _ => simp [kind] at hkind
  | bool b =>
    cases other with
    | bool d =>
      cases b <;> cases d
      · exact ⟨rfl, List.append_cancel_left h⟩
      · simp [kind] at hkind
      · simp [kind] at hkind
      · exact ⟨rfl, List.append_cancel_left h⟩
    | _ => cases b <;> simp [kind] at hkind
  | int n =>
    cases other with
    | int m =>
      have htake : (int n).print = (int m).print := by
        rw [← takeWhile_integer (integer_ne_nil_and_all n).2 hrest,
          ← takeWhile_integer (integer_ne_nil_and_all m).2 hrest']
        exact congrArg (List.takeWhile isIntegerChar) h
      refine ⟨by rw [integer_injective htake], ?_⟩
      have htext : (int n).print ++ rest = (int m).print ++ rest' := h
      rw [htake] at htext
      exact List.append_cancel_left htext
    | bool b => cases b <;> simp [kind] at hkind
    | _ => simp [kind] at hkind
  | string text =>
    cases other with
    | string text' =>
      obtain ⟨rfl, hrest⟩ := quoted_append_inj h
      exact ⟨rfl, hrest⟩
    | bool b => cases b <;> simp [kind] at hkind
    | _ => simp [kind] at hkind
  | _ => simp [kind] at hleaf

mutual

/-- **The text of a tree ends where it ends, and tells the tree.** -/
lemma prettyAt_append_inj (level : Nat) : ∀ (value other : Value) (rest rest' : List Char),
    value.integral = true → other.integral = true → Follows rest → Follows rest' →
    value.prettyAt level ++ rest = other.prettyAt level ++ rest' → value = other ∧ rest = rest'
  | null, other, rest, rest', hvalue, hother, hrest, hrest', h =>
    leaf_append_inj (by simp [kind]) (kind_eq hvalue hother h) hrest hrest' h
  | bool b, other, rest, rest', hvalue, hother, hrest, hrest', h =>
    leaf_append_inj (by cases b <;> simp [kind]) (kind_eq hvalue hother h) hrest hrest' h
  | int n, other, rest, rest', hvalue, hother, hrest, hrest', h =>
    leaf_append_inj (by simp [kind]) (kind_eq hvalue hother h) hrest hrest' h
  | string text, other, rest, rest', hvalue, hother, hrest, hrest', h =>
    leaf_append_inj (by simp [kind]) (kind_eq hvalue hother h) hrest hrest' h
  | float literal, _, _, _, hvalue, _, _, _, _ => absurd hvalue (by simp [integral])
  | array [], other, rest, rest', hvalue, hother, _, _, h => by
    have hkind := kind_eq hvalue hother h
    cases other with
    | array items' =>
      cases items' with
      | nil => exact ⟨rfl, List.append_cancel_left h⟩
      | cons item' items' => simp [prettyAt] at h
    | bool b => cases b <;> simp [kind] at hkind
    | _ => simp [kind] at hkind
  | array (item :: items), other, rest, rest', hvalue, hother, _, _, h => by
    have hkind := kind_eq hvalue hother h
    cases other with
    | array items' =>
      cases items' with
      | nil => simp [prettyAt] at h
      | cons item' items' =>
        rw [integral, integralItems, Bool.and_eq_true] at hvalue hother
        simp only [prettyAt, List.cons_append, List.append_assoc, List.cons.injEq, true_and,
          List.append_cancel_left_eq] at h
        obtain ⟨rfl, htail⟩ := prettyAt_append_inj (level + 1) item item' _ _ hvalue.1 hother.1
          (follows_items _ items _) (follows_items _ items' _) h
        obtain ⟨rfl, hclose⟩ := prettyItems_append_inj (level + 1) items items' _ _ hvalue.2
          hother.2 htail
        exact ⟨rfl, by simpa using hclose⟩
    | bool b => cases b <;> simp [kind] at hkind
    | _ => simp [kind] at hkind
  | object [], other, rest, rest', hvalue, hother, _, _, h => by
    have hkind := kind_eq hvalue hother h
    cases other with
    | object fields' =>
      cases fields' with
      | nil => exact ⟨rfl, List.append_cancel_left h⟩
      | cons field' fields' => simp [prettyAt] at h
    | bool b => cases b <;> simp [kind] at hkind
    | _ => simp [kind] at hkind
  | object ((key, value) :: fields), other, rest, rest', hvalue, hother, _, _, h => by
    have hkind := kind_eq hvalue hother h
    cases other with
    | object fields' =>
      cases fields' with
      | nil => simp [prettyAt] at h
      | cons field' fields' =>
        obtain ⟨key', value'⟩ := field'
        rw [integral, integralFields, Bool.and_eq_true] at hvalue hother
        simp only [prettyAt, List.cons_append, List.append_assoc, List.cons.injEq, true_and,
          List.append_cancel_left_eq] at h
        obtain ⟨rfl, hfield⟩ := quoted_append_inj h
        simp only [List.cons.injEq, true_and] at hfield
        obtain ⟨rfl, htail⟩ := prettyAt_append_inj (level + 1) value value' _ _ hvalue.1 hother.1
          (follows_fields _ fields _) (follows_fields _ fields' _) hfield
        obtain ⟨rfl, hclose⟩ := prettyFields_append_inj (level + 1) fields fields' _ _ hvalue.2
          hother.2 htail
        exact ⟨rfl, by simpa using hclose⟩
    | bool b => cases b <;> simp [kind] at hkind
    | _ => simp [kind] at hkind

/-- The items of an array end where they end. -/
lemma prettyItems_append_inj (level : Nat) : ∀ (items items' : List Value)
    (rest rest' : List Char), integralItems items = true → integralItems items' = true →
    prettyItems level items ++ '
' :: rest = prettyItems level items' ++ '
' :: rest' →
    items = items' ∧ rest = rest'
  | [], items', rest, rest', _, _, h => by
    cases items' with
    | nil => exact ⟨rfl, by simpa [prettyItems] using h⟩
    | cons item' items' => simp [prettyItems] at h
  | item :: items, items', rest, rest', hitems, hitems', h => by
    cases items' with
    | nil => simp [prettyItems] at h
    | cons item' items' =>
      rw [integralItems, Bool.and_eq_true] at hitems hitems'
      simp only [prettyItems, List.cons_append, List.append_assoc, List.cons.injEq, true_and,
        List.append_cancel_left_eq] at h
      obtain ⟨rfl, htail⟩ := prettyAt_append_inj level item item' _ _ hitems.1 hitems'.1
        (follows_items level items rest) (follows_items level items' rest') h
      obtain ⟨rfl, hrest⟩ := prettyItems_append_inj level items items' rest rest' hitems.2
        hitems'.2 htail
      exact ⟨rfl, hrest⟩

/-- The fields of an object end where they end. -/
lemma prettyFields_append_inj (level : Nat) : ∀ (fields fields' : List (String × Value))
    (rest rest' : List Char), integralFields fields = true → integralFields fields' = true →
    prettyFields level fields ++ '
' :: rest = prettyFields level fields' ++ '
' :: rest' →
    fields = fields' ∧ rest = rest'
  | [], fields', rest, rest', _, _, h => by
    cases fields' with
    | nil => exact ⟨rfl, by simpa [prettyFields] using h⟩
    | cons field' fields' => simp [prettyFields] at h
  | (key, value) :: fields, fields', rest, rest', hfields, hfields', h => by
    cases fields' with
    | nil => simp [prettyFields] at h
    | cons field' fields' =>
      obtain ⟨key', value'⟩ := field'
      rw [integralFields, Bool.and_eq_true] at hfields hfields'
      simp only [prettyFields, List.cons_append, List.append_assoc, List.cons.injEq, true_and,
        List.append_cancel_left_eq] at h
      obtain ⟨rfl, hvalue⟩ := quoted_append_inj h
      simp only [List.cons.injEq, true_and] at hvalue
      obtain ⟨rfl, htail⟩ := prettyAt_append_inj level value value' _ _ hfields.1 hfields'.1
        (follows_fields level fields rest) (follows_fields level fields' rest') hvalue
      obtain ⟨rfl, hrest⟩ := prettyFields_append_inj level fields fields' rest rest' hfields.2
        hfields'.2 htail
      exact ⟨rfl, hrest⟩

end

/-- **A tree without fractions is told by its text.** -/
lemma pretty_injective {value other : Value} (hvalue : value.integral = true)
    (hother : other.integral = true) (h : value.pretty = other.pretty) : value = other := by
  have htext := String.ofList_injective h
  refine (prettyAt_append_inj 0 value other [] [] hvalue hother follows_nil follows_nil ?_).1
  rw [htext]

/-! ### Trees without fractions -/

lemma integralItems_iff {items : List Value} :
    integralItems items = true ↔ ∀ item ∈ items, item.integral = true := by
  induction items with
  | nil => simp [integralItems]
  | cons item items ih => simp [integralItems, ih]

lemma integralFields_iff {fields : List (String × Value)} :
    integralFields fields = true ↔ ∀ field ∈ fields, field.2.integral = true := by
  induction fields with
  | nil => simp [integralFields]
  | cons field fields ih => simp [integralFields, ih]

lemma integral_ofObject {fields : List (String × Option Value)}
    (h : ∀ field ∈ fields, ∀ value ∈ field.2, value.integral = true) :
    (ofObject fields).integral = true := by
  rw [ofObject, integral, integralFields_iff]
  exact fun field hfield => h _ (mem_ofFields hfield) _ rfl

end Value

end Rupi
