import Rupi.Core.EncodeMessage

/-!
Reading a typed value back from a JSON tree, the way a derived reader does.

- `Value.asText`, `Value.asNat`, …: the scalar readers.
- `Value.required`, `Value.optionally`, `Value.defaulted`: a field that must be
  there, one that may be missing or `null`, and one with a default.
- `Value.eachItem`: an array whose items are all read.
- `Reads`: a reader gives back what a writer wrote.
- `Value.Carries`: a value has these fields; an object has the fields it was
  built from.
-/

namespace Rupi

variable {α β : Type}

namespace Value

/-! ### Scalars -/

def asText : Value → Option String
  | string text => some text
  | _ => none

def asBool : Value → Option Bool
  | bool b => some b
  | _ => none

/-- An integer of an unsigned type. -/
def asNat : Value → Option Nat
  | int (.ofNat n) => some n
  | _ => none

def asInt : Value → Option Int
  | int n => some n
  | _ => none

@[simp] lemma asText_string (text : String) : (string text).asText = some text := rfl
@[simp] lemma asBool_bool (b : Bool) : (bool b).asBool = some b := rfl
@[simp] lemma asNat_ofNat (n : Nat) : (ofNat n).asNat = some n := rfl
@[simp] lemma asInt_int (n : Int) : (int n).asInt = some n := rfl

/-! ### Fields -/

/-- A field that must be there. -/
def required (decode : Value → Option α) (value : Value) (key : String) : Option α :=
  (value.get key).bind decode

/-- A value of an optional type: missing and `null` both read as none. -/
def readOptional (decode : Value → Option α) : Option Value → Option (Option α)
  | none | some null => some none
  | some field => (decode field).map some

/-- A field of an optional type. -/
def optionally (decode : Value → Option α) (value : Value) (key : String) : Option (Option α) :=
  readOptional decode (value.get key)

/-- A value with a default. -/
def readDefault (decode : Value → Option α) (default : α) : Option Value → Option α
  | none => some default
  | some field => decode field

/-- A field with a default. -/
def defaulted (decode : Value → Option α) (default : α) (value : Value) (key : String) :
    Option α :=
  readDefault decode default (value.get key)

/-- An array whose items are all read. -/
def eachItem (decode : Value → Option α) : Value → Option (List α)
  | array items => items.mapM decode
  | _ => none

end Value

open Value

/-! ### Readers and writers -/

/-- The reader gives back what the writer wrote. -/
def Reads (encode : α → Value) (decode : Value → Option α) : Prop :=
  ∀ a, decode (encode a) = some a

section

variable {encode : α → Value} {decode : Value → Option α}

lemma mapM_map_of_mem {encode : α → β} {decode : β → Option α} {items : List α}
    (h : ∀ a ∈ items, decode (encode a) = some a) : (items.map encode).mapM decode = some items := by
  induction items with
  | nil => rfl
  | cons a items ih =>
    have ha := h a List.mem_cons_self
    have hrest := ih fun b hb => h b (List.mem_cons_of_mem _ hb)
    rw [List.map_cons, List.mapM_cons, ha, hrest]
    rfl

/-- An array of written items is read back item by item. -/
lemma eachItem_map {items : List α} (h : ∀ a ∈ items, decode (encode a) = some a) :
    eachItem decode (array (items.map encode)) = some items :=
  mapM_map_of_mem h

lemma Reads.eachItem (h : Reads encode decode) (items : List α) :
    eachItem decode (array (items.map encode)) = some items :=
  eachItem_map fun a _ => h a

/-- A field left out when it has no value is read back. -/
lemma readOptional_optional {value : Option α} (h : ∀ a ∈ value, decode (encode a) = some a)
    (hnull : ∀ a, encode a ≠ null) : readOptional decode (optional encode value) = some value := by
  cases value with
  | none => rfl
  | some a =>
    have ha := h a rfl
    rw [Value.optional, Option.map_some, readOptional, ha]
    · rfl
    · exact hnull a

/-- A field written as `null` when it has no value is read back. -/
lemma readOptional_nullable {value : Option α} (h : ∀ a ∈ value, decode (encode a) = some a)
    (hnull : ∀ a, encode a ≠ null) :
    readOptional decode (some (nullable encode value)) = some value := by
  cases value with
  | none => rfl
  | some a =>
    have ha := h a rfl
    rw [nullable, Option.map_some, Option.getD_some, readOptional, ha]
    · rfl
    · exact hnull a

end

@[simp] lemma readOptional_text (value : Option String) :
    readOptional asText (optional string value) = some value :=
  readOptional_optional (fun _ _ => rfl) (by simp)

@[simp] lemma readOptional_nullableText (value : Option String) :
    readOptional asText (some (nullable string value)) = some value :=
  readOptional_nullable (fun _ _ => rfl) (by simp)

@[simp] lemma readOptional_nat (value : Option Nat) :
    readOptional asNat (optional ofNat value) = some value :=
  readOptional_optional (fun _ _ => rfl) (by simp [ofNat])

@[simp] lemma readOptional_int (value : Option Int) :
    readOptional asInt (optional int value) = some value :=
  readOptional_optional (fun _ _ => rfl) (by simp)

@[simp] lemma readDefault_some (decode : Value → Option α) (default : α) (field : Value) :
    readDefault decode default (some field) = decode field := rfl

/-- A counter left out at zero is read back. -/
@[simp] lemma readDefault_count (n : Nat) : readDefault asNat 0 (countValue n) = some n := by
  rw [countValue]
  by_cases h : n = 0
  · rw [if_pos h, h]
    rfl
  · rw [if_neg h]
    rfl

/-- A flag left out when it is unset is read back. -/
@[simp] lemma readDefault_flag (b : Bool) :
    readDefault asBool false (if b then some (bool true) else none) = some b := by
  cases b <;> rfl

/-! ### The fields of an object -/

/-- The value has these fields, and lacks those that are left out. -/
def Value.Carries (value : Value) (fields : List (String × Option Value)) : Prop :=
  ∀ field ∈ fields, value.get field.1 = field.2

@[simp] lemma Value.carries_nil (value : Value) : value.Carries [] := by simp [Carries]

@[simp] lemma Value.carries_cons (value : Value) (key : String) (field : Option Value)
    (fields : List (String × Option Value)) :
    value.Carries ((key, field) :: fields) ↔ value.get key = field ∧ value.Carries fields := by
  simp [Carries]

lemma Value.carries_append (value : Value) (fields fields' : List (String × Option Value)) :
    value.Carries (fields ++ fields') ↔ value.Carries fields ∧ value.Carries fields' := by
  simp [Carries, or_imp, forall_and]

lemma Value.get_ofObject_of_notMem {key : String} {fields : List (String × Option Value)}
    (h : key ∉ fields.map Prod.fst) : (ofObject fields).get key = none := by
  induction fields with
  | nil => rfl
  | cons field fields ih =>
    obtain ⟨hne, hrest⟩ : key ≠ field.1 ∧ key ∉ fields.map Prod.fst := by simpa using h
    rw [get_ofObject_cons, if_neg (Ne.symm hne)]
    exact ih hrest

/-- An object carries the fields it was built from. -/
theorem Value.carries_ofObject {fields : List (String × Option Value)}
    (h : (fields.map Prod.fst).Nodup) : (ofObject fields).Carries fields := by
  induction fields with
  | nil => simp
  | cons field fields ih =>
    obtain ⟨hhead, htail⟩ := List.nodup_cons.mp h
    rw [carries_cons]
    refine ⟨?_, fun other hother => ?_⟩
    · rw [get_ofObject_cons, if_pos rfl, get_ofObject_of_notMem hhead, Option.or_none]
    · have hne : field.1 ≠ other.1 := fun heq => hhead (heq ▸ List.mem_map_of_mem hother)
      rw [get_ofObject_cons, if_neg hne]
      exact ih htail other hother

end Rupi
