import Rupi.Core.Value

/-!
Schemas in the strict subset of an endpoint.

- `makeNullable`: a property that may be left out admits `null` instead.
- `normalizeStrictSchema`: every declared property is required, those that were optional admit
  `null`.
-/

namespace Rupi

open Value

/-- The value under a key is part of the object. -/
lemma Value.sizeOf_get_lt {fields : List (String × Value)} {key : String} {value : Value}
    (h : (object fields).get key = some value) : sizeOf value < sizeOf (object fields) := by
  obtain ⟨field, hfind, rfl⟩ := Option.map_eq_some_iff.1 h
  have hmem := List.sizeOf_lt_of_mem (List.mem_of_find?_eq_some hfind)
  rw [object.sizeOf_spec]
  have hfield : sizeOf field = 1 + sizeOf field.1 + sizeOf field.2 := by cases field; rfl
  omega

/-- `make_nullable`: `none` where the schema cannot be made to admit `null`. -/
def makeNullable (schema : Value) : Option Value :=
  let refuses := (schema.get "const").isSome || (schema.get "$ref").isSome ||
    (match schema.get "enum" with
      | some (array values) => values.contains null
      | _ => false)
  if refuses then none
  else
    let widened := match schema.get "type" with
      | some (string name) =>
          if name = "null" then none
          else some (schema.setField "type" (array [string name, string "null"]))
      | some (array types) =>
          if types.all (fun type => type matches string _) && !types.contains (string "null") then
            some (schema.setField "type" (array (types ++ [string "null"])))
          else none
      | _ => none
    widened.map fun schema =>
      match schema.get "enum" with
      | some (array values) => schema.setField "enum" (array (values ++ [null]))
      | _ => schema

/-- The names under `required`; `none` where they are no list of names. -/
def requiredNames (schema : Value) : Option (List String) :=
  match schema.get "required" with
  | none => some []
  | some (array items) => items.mapM fun
      | string name => some name
      | _ => none
  | some _ => none

/-- The strict form of an object schema, from its properties in their strict form. -/
def strictObject (schema : Value) (properties : List (String × Value)) : Option Value := do
  let required ← requiredNames schema
  if required.any fun name => !properties.any (·.1 = name) then none
  else do
    let admitted ← properties.mapM fun property =>
      if property.1 ∈ required then some property
      else (makeNullable property.2).map fun value => (property.1, value)
    some ((((schema.setField "type" (string "object")).setField "properties" (object admitted)).setField
      "required" (array (properties.map fun property => string property.1))).setField
        "additionalProperties" (bool false))

/-- `normalize_strict_schema`. -/
def normalizeStrictSchema (schema : Value) : Option Value :=
  match schema with
  | object fields =>
      if (object fields).get "type" = some (string "object") ∨
          ((object fields).get "properties").isSome then
        if (object fields).get "additionalProperties" ≠ some (bool false) then none
        else
          match _h : (object fields).get "properties" with
          | none => strictObject (object fields) []
          | some (object properties) => do
              let normalized ← properties.attach.mapM fun property =>
                (normalizeStrictSchema property.1.2).map fun value => (property.1.1, value)
              strictObject (object fields) normalized
          | some _ => none
      else if (object fields).get "type" = some (string "array") then
        match _h : (object fields).get "items" with
        | none => none
        | some items =>
            (normalizeStrictSchema items).map fun items => (object fields).setField "items" items
      else
        match (object fields).get "type" with
        | some (string _) => some (object fields)
        | _ => none
  | _ => none
termination_by sizeOf schema
decreasing_by
  · have hproperties := sizeOf_get_lt _h
    have hproperty := List.sizeOf_lt_of_mem property.2
    have hvalue : sizeOf property.1 = 1 + sizeOf property.1.1 + sizeOf property.1.2 := rfl
    rw [object.sizeOf_spec] at hproperties
    omega
  · exact sizeOf_get_lt _h

end Rupi
