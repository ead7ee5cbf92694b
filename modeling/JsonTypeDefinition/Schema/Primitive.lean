/-!
# Primitive types

The type form names one of eleven types.
-/

namespace JsonTypeDefinition

/-- The types that the type form names. -/
inductive Primitive where
  | boolean
  | float32
  | float64
  | int8
  | uint8
  | int16
  | uint16
  | int32
  | uint32
  | string
  | timestamp
  deriving DecidableEq

namespace Primitive

def all : List Primitive :=
  [boolean, float32, float64, int8, uint8, int16, uint16, int32, uint32, string, timestamp]

def name : Primitive → String
  | boolean => "boolean"
  | float32 => "float32"
  | float64 => "float64"
  | int8 => "int8"
  | uint8 => "uint8"
  | int16 => "int16"
  | uint16 => "uint16"
  | int32 => "int32"
  | uint32 => "uint32"
  | string => "string"
  | timestamp => "timestamp"

def ofName? (name : String) : Option Primitive :=
  all.find? fun p => p.name = name

def range? : Primitive → Option (Int × Int)
  | int8 => some (-128, 127)
  | uint8 => some (0, 255)
  | int16 => some (-32768, 32767)
  | uint16 => some (0, 65535)
  | int32 => some (-2147483648, 2147483647)
  | uint32 => some (0, 4294967295)
  | _ => none

def isInteger (p : Primitive) : Bool :=
  p.range?.isSome

def isNumeric (p : Primitive) : Bool :=
  p.isInteger || p == float32 || p == float64

/-- Whether the values are ordered, so that a minimum and a maximum make sense. -/
def isOrdered (p : Primitive) : Bool :=
  p.isNumeric || p == timestamp

end Primitive

end JsonTypeDefinition
