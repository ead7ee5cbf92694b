import JsonTypeDefinition.Json.Basic

/-!
# Equality of JSON values

`Json.sameValue` compares structurally: numbers by their binary64 value, objects by key whatever
their order. `Json.allDistinct` asks it of every two elements of a list.
-/

namespace JsonTypeDefinition.Json

mutual

/-- Whether two values are equal. Objects of one size are equal if every member of the first has
an equal one under its key in the second. -/
def sameValue : Json → Json → Bool
  | .null, .null => true
  | .bool a, .bool b => a == b
  | .number m, .number n => m.value == n.value
  | .string s, .string t => s == t
  | .array items, .array others => sameItems items others
  | .object members, .object others =>
    members.length == others.length && sameMembers members others
  | _, _ => false

def sameItems : List Json → List Json → Bool
  | [], [] => true
  | a :: items, b :: others => sameValue a b && sameItems items others
  | _, _ => false

/-- Whether each member has an equal one under its key among `others`. -/
def sameMembers : List (String × Json) → Members → Bool
  | [], _ => true
  | (key, a) :: members, others =>
    (match others.get? key with
      | some b => sameValue a b
      | none => false) && sameMembers members others

end

/-- Whether no two positions hold equal values. -/
def allDistinct : List Json → Bool
  | [] => true
  | a :: rest => rest.all (fun b => !sameValue a b) && allDistinct rest

end JsonTypeDefinition.Json
