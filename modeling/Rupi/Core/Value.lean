import Mathlib.Tactic

/-!
JSON values, as `serde_json::Value` has them.

Tool arguments travel through the event stream, the session log and the
redaction walk as JSON trees, and the validators compare them with `==`.

- `Value`: the tree, with objects as lists of fields in map order.
- `Value.beq_iff`: the structural comparison decides equality.
- `Value.get`, `Value.insert`: the map operations the store uses on a line.
-/

namespace Rupi

/-- Symbols of a number that is no integer. -/
def isNumberChar (c : Char) : Bool :=
  c.isDigit || c == '+' || c == '-' || c == '.' || c == 'e' || c == 'E'

/-- The literal of a number that is no integer. -/
structure NumberLiteral where
  text : String
  isNumber : text.toList.all isNumberChar
  deriving DecidableEq, Repr

/-- `serde_json::Value`. An integer number keeps its value, any other number
the literal it is written with; an object is the list of its fields in the
order of the map. -/
inductive Value where
  | null
  | bool (b : Bool)
  | int (n : Int)
  | float (literal : NumberLiteral)
  | string (text : String)
  | array (items : List Value)
  | object (fields : List (String × Value))
  deriving Repr, Inhabited

namespace Value

/-! ### Equality -/

mutual

/-- Structural comparison of two values. -/
def beq : Value → Value → Bool
  | null, null => true
  | bool a, bool b => a == b
  | int a, int b => a == b
  | float a, float b => a == b
  | string a, string b => a == b
  | array xs, array ys => beqItems xs ys
  | object xs, object ys => beqFields xs ys
  | _, _ => false

/-- Structural comparison of two arrays. -/
def beqItems : List Value → List Value → Bool
  | [], [] => true
  | x :: xs, y :: ys => beq x y && beqItems xs ys
  | _, _ => false

/-- Structural comparison of two field lists. -/
def beqFields : List (String × Value) → List (String × Value) → Bool
  | [], [] => true
  | (k, x) :: xs, (l, y) :: ys => k == l && beq x y && beqFields xs ys
  | _, _ => false

end

mutual

theorem beq_iff : ∀ a b : Value, beq a b = true ↔ a = b
  | null, b => by cases b <;> simp [beq]
  | bool _, b => by cases b <;> simp [beq]
  | int _, b => by cases b <;> simp [beq]
  | float _, b => by cases b <;> simp [beq]
  | string _, b => by cases b <;> simp [beq]
  | array xs, b => by
      cases b with
      | array ys => simpa [beq] using beqItems_iff xs ys
      | _ => simp [beq]
  | object xs, b => by
      cases b with
      | object ys => simpa [beq] using beqFields_iff xs ys
      | _ => simp [beq]

theorem beqItems_iff : ∀ xs ys : List Value, beqItems xs ys = true ↔ xs = ys
  | [], ys => by cases ys <;> simp [beqItems]
  | x :: xs, ys => by
      cases ys with
      | nil => simp [beqItems]
      | cons y ys => simp [beqItems, beq_iff x y, beqItems_iff xs ys]

theorem beqFields_iff : ∀ xs ys : List (String × Value), beqFields xs ys = true ↔ xs = ys
  | [], ys => by cases ys <;> simp [beqFields]
  | (k, x) :: xs, ys => by
      cases ys with
      | nil => simp [beqFields]
      | cons y ys =>
        obtain ⟨l, y⟩ := y
        simp [beqFields, beq_iff x y, beqFields_iff xs ys]

end

instance : DecidableEq Value := fun a b => decidable_of_iff _ (beq_iff a b)

/-! ### Fields of an object -/

/-- The value under a key, when the value is an object that has it. -/
def get (value : Value) (key : String) : Option Value :=
  match value with
  | object fields => (fields.find? fun field => field.1 == key).map (·.2)
  | _ => none

/-- `Map::insert`: the map keeps its keys in order and replaces the value under a
key it has. -/
def insertField (key : String) (value : Value) : List (String × Value) → List (String × Value)
  | [] => [(key, value)]
  | field :: fields =>
    if field.1 = key then (key, value) :: fields
    else if key < field.1 then (key, value) :: field :: fields
    else field :: insertField key value fields

/-- An object with the fields that are present. -/
def ofFields : List (String × Option Value) → List (String × Value)
  | [] => []
  | (key, some value) :: fields => insertField key value (ofFields fields)
  | (_, none) :: fields => ofFields fields

/-- `set_field`: put a field on an object and leave every other value as it is. -/
def setField (line : Value) (key : String) (value : Value) : Value :=
  match line with
  | object fields => object (insertField key value fields)
  | _ => line

/-- Inserting under one key leaves every other key as it was. -/
lemma find?_insertField_ne {key other : String} (hne : other ≠ key) (value : Value)
    (fields : List (String × Value)) :
    (insertField key value fields).find? (fun field => field.1 == other) =
      fields.find? fun field => field.1 == other := by
  induction fields with
  | nil => simp [insertField, Ne.symm hne]
  | cons field fields ih =>
    by_cases hkey : field.1 = key
    · simp [insertField, hkey, Ne.symm hne]
    · by_cases hlt : key < field.1
      · simp [insertField, hkey, hlt, Ne.symm hne]
      · simp [insertField, hkey, hlt, List.find?_cons, ih]

/-- The value under the key just inserted. -/
lemma find?_insertField_self (key : String) (value : Value) (fields : List (String × Value)) :
    (insertField key value fields).find? (fun field => field.1 == key) = some (key, value) := by
  induction fields with
  | nil => simp [insertField]
  | cons field fields ih =>
    by_cases hkey : field.1 = key
    · simp [insertField, hkey]
    · by_cases hlt : key < field.1
      · simp [insertField, hkey, hlt]
      · simp [insertField, hkey, hlt, ih]

@[simp] lemma get_insertField_self (key : String) (value : Value)
    (fields : List (String × Value)) :
    (object (insertField key value fields)).get key = some value := by
  simp [get, find?_insertField_self]

@[simp] lemma get_insertField_ne {key other : String} (hne : other ≠ key) (value : Value)
    (fields : List (String × Value)) :
    (object (insertField key value fields)).get other = (object fields).get other := by
  simp [get, find?_insertField_ne hne]

@[simp] lemma get_setField_ne {key other : String} (hne : other ≠ key) (line value : Value) :
    (line.setField key value).get other = line.get other := by
  cases line with
  | object fields => exact get_insertField_ne hne value fields
  | _ => rfl

@[simp] lemma get_ofFields_nil (key : String) : (object (ofFields [])).get key = none := rfl

/-- The first field under a key that is present decides. -/
@[simp] lemma get_ofFields_cons (key other : String) (value : Option Value)
    (fields : List (String × Option Value)) :
    (object (ofFields ((other, value) :: fields))).get key =
      if other = key then value.or ((object (ofFields fields)).get key)
      else (object (ofFields fields)).get key := by
  cases value with
  | none => simp [ofFields]
  | some value =>
    by_cases hkey : other = key
    · simp [ofFields, hkey]
    · simp [ofFields, hkey, Ne.symm hkey]

@[simp] lemma get_ofFields_append (key : String) (fields fields' : List (String × Option Value)) :
    (object (ofFields (fields ++ fields'))).get key =
      ((object (ofFields fields)).get key).or ((object (ofFields fields')).get key) := by
  induction fields with
  | nil => simp
  | cons field fields ih =>
    obtain ⟨other, value⟩ := field
    by_cases hkey : other = key
    · cases value <;> simp [hkey, ih]
    · simp [hkey, ih]

end Value

end Rupi
