import JsonTypeDefinition.Number.Binary64

/-!
# JSON values

`Json` is a decoded document. An object is the list of its members in document order, which
everything that walks a document follows; no object repeats a key. Strings are sequences of
Unicode scalar values.
-/

namespace JsonTypeDefinition

inductive Json where
  | null
  | bool (b : Bool)
  | number (n : Number)
  | string (s : String)
  | array (items : List Json)
  | object (members : List (String × Json))
  deriving Inhabited

/-- The members of an object, in document order. -/
abbrev Members := List (String × Json)

namespace Members

def get? (members : Members) (key : String) : Option Json :=
  members.lookup key

def has (members : Members) (key : String) : Bool :=
  (members.get? key).isSome

def keys (members : Members) : List String :=
  members.map Prod.fst

end Members

namespace Json

/-- The six kinds of JSON value. -/
inductive Kind where
  | string
  | number
  | boolean
  | null
  | array
  | object
  deriving DecidableEq

def Kind.name : Kind → String
  | .string => "string"
  | .number => "number"
  | .boolean => "boolean"
  | .null => "null"
  | .array => "array"
  | .object => "object"

def kind : Json → Kind
  | .null => .null
  | .bool _ => .boolean
  | .number _ => .number
  | .string _ => .string
  | .array _ => .array
  | .object _ => .object

def string? : Json → Option String
  | .string s => some s
  | _ => none

def bool? : Json → Option Bool
  | .bool b => some b
  | _ => none

def number? : Json → Option Number
  | .number n => some n
  | _ => none

def array? : Json → Option (List Json)
  | .array items => some items
  | _ => none

def object? : Json → Option Members
  | .object members => some members
  | _ => none

/-- Whether a flag with this value counts as set: everything but `null`, `false`, zero and the
empty string does. -/
def isTruthy : Json → Bool
  | .null => false
  | .bool b => b
  | .number n => n.value ≠ 0
  | .string s => s ≠ ""
  | .array _ => true
  | .object _ => true

mutual

/-- The nesting levels of a value; a scalar or an empty container has one. -/
def levels : Json → Nat
  | .array items => levelsOfItems items + 1
  | .object members => levelsOfMembers members + 1
  | _ => 1

def levelsOfItems : List Json → Nat
  | [] => 0
  | item :: rest => max (levels item) (levelsOfItems rest)

def levelsOfMembers : List (String × Json) → Nat
  | [] => 0
  | (_, value) :: rest => max (levels value) (levelsOfMembers rest)

end

end Json

end JsonTypeDefinition
