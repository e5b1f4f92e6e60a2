import Onlyne.Core.Canonical

/-!
# Values with `undefined`

`canonical` of `core.ts` on what a program may hand to it: `undefined` stands for `null`, and an object leaves out a
member that is `undefined`.  `Value.json` is the JSON value that is left.
-/

namespace Onlyne

open Foundation List

/-- A finite number, kept as what `JSON.stringify` prints of it. -/
structure Numeral where
  text : String
  printed : (Json.number text).plain = true

inductive Value where
  | undefined
  | null
  | bool (value : Bool)
  | number (value : Numeral)
  | string (value : String)
  | array (items : List Value)
  | object (members : List (String × Value))

mutual
def canonicalChars : Value → List Char
  | .undefined => "null".toList
  | .null => "null".toList
  | .bool value => (if value then "true" else "false").toList
  | .number value => value.text.toList
  | .string value => (quote value).toList
  | .array items => '[' :: [','].intercalate (canonicalElements items) ++ [']']
  | .object members => '\x7b' :: [','].intercalate ((sortedBy Prod.fst (canonicalMembers members)).map
      fun member => (quote member.1).toList ++ ':' :: member.2) ++ ['\x7d']

def canonicalElements : List Value → List (List Char)
  | [] => []
  | item :: rest => canonicalChars item :: canonicalElements rest

def canonicalMembers : List (String × Value) → List (String × List Char)
  | [] => []
  | (_, .undefined) :: rest => canonicalMembers rest
  | (name, value) :: rest => (name, canonicalChars value) :: canonicalMembers rest
end

def canonicalValue (value : Value) : String := String.ofList (canonicalChars value)

mutual
/-- What is left of a value: no member is `undefined`, and elsewhere it is `null`. -/
def Value.json : Value → Json
  | .undefined => .null
  | .null => .null
  | .bool value => .bool value
  | .number value => .number value.text
  | .string value => .string value
  | .array items => .array (elementsJson items)
  | .object members => .object (membersJson members)

def elementsJson : List Value → List Json
  | [] => []
  | item :: rest => item.json :: elementsJson rest

def membersJson : List (String × Value) → List (String × Json)
  | [] => []
  | (_, .undefined) :: rest => membersJson rest
  | (name, value) :: rest => (name, value.json) :: membersJson rest
end

mutual
theorem canonicalChars_eq : ∀ value, canonicalChars value = canonicalText value.json
  | .undefined | .null | .number _ | .string _ => rfl
  | .bool value => by cases value <;> rfl
  | .array items => by rw [canonicalChars, Value.json, canonicalText, canonicalElements_eq]
  | .object members => by rw [canonicalChars, Value.json, canonicalText, canonicalMembers_eq]

theorem canonicalElements_eq : ∀ items, canonicalElements items = canonicalItems (elementsJson items)
  | [] => rfl
  | item :: rest => by rw [canonicalElements, elementsJson, canonicalItems, canonicalChars_eq item, canonicalElements_eq rest]

theorem canonicalMembers_eq : ∀ members, canonicalMembers members = canonicalFields (membersJson members)
  | [] => rfl
  | (name, value) :: rest => by
    have hvalue := canonicalChars_eq value
    have hrest := canonicalMembers_eq rest
    cases value with
    | undefined => exact hrest
    | _ => exact congrArg₂ (fun text texts => (name, text) :: texts) hvalue hrest
end

theorem canonicalValue_eq (value : Value) : canonicalValue value = canonical value.json := by
  rw [canonicalValue, canonicalChars_eq, canonical]

mutual
theorem plain_json : ∀ value : Value, value.json.plain = true
  | .undefined | .null | .string _ | .bool _ => rfl
  | .number value => value.printed
  | .array items => plainItems_json items
  | .object members => plainFields_json members

theorem plainItems_json : ∀ items, plainItems (elementsJson items) = true
  | [] => rfl
  | item :: rest => by rw [elementsJson, plainItems, plain_json item, plainItems_json rest, Bool.and_self]

theorem plainFields_json : ∀ members, plainFields (membersJson members) = true
  | [] => rfl
  | (name, value) :: rest => by
    have hvalue := plain_json value
    have hrest := plainFields_json rest
    cases value with
    | undefined => exact hrest
    | _ => exact Bool.and_eq_true_iff.mpr ⟨hvalue, hrest⟩
end

theorem normal_normal (value : Json) : value.normal.normal = value.normal := by
  induction value using Json.inductionOn with
  | null | bool | number | string => rfl
  | array items ih =>
    rw [Json.normal, Json.normal, normalItems_eq, normalItems_eq, map_map]
    exact congrArg Json.array (map_congr_left ih)
  | object fields ih =>
    have hsorted (fields : List (String × Json)) :
        sortedBy Prod.fst (sortedBy Prod.fst fields) = sortedBy Prod.fst fields :=
      Pairwise.insertionSort_eq (pairwise_insertionSort_position fields)
    have hnormal : (fields.map fun field => (field.1, field.2.normal)).map (fun field => (field.1, field.2.normal)) =
        fields.map fun field => (field.1, field.2.normal) := by
      rw [map_map]
      refine map_congr_left fun field hfield => ?_
      simp only [Function.comp, ih field hfield]
    rw [Json.normal, Json.normal, normalFields_eq, normalFields_eq, ← sortedBy_map, hnormal, hsorted]

end Onlyne
