import JsonTypeDefinition.Extension.Basic

/-!
# Without leap seconds

This extension refuses timestamps whose second is 60.
-/

namespace JsonTypeDefinition.LeapSeconds

/-- The two bytes of a text in UTF-8 behind the first seventeen, which are `YYYY-MM-DDTHH:MM:` in a
timestamp. -/
def secondBytes (s : String) : List UInt8 :=
  ((s.toList.flatMap String.utf8EncodeChar).drop 17).take 2

/-- The check of a timestamp. Its second is 60 if the two bytes are the digits of it. -/
def supplement : Supplement
  | .string s => if secondBytes s = [0x36, 0x30] then [.leapSecond] else []
  | _ => []

def hook : Hook := fun members _ =>
  if (members.get? "type").bind Json.string? = some "timestamp" then
    { supplements := [supplement] }
  else {}

/-- The extension that forbids leap seconds. -/
def extension : Extension where
  name := "disallow-leap-seconds"
  hooks := [(.type, hook)]

end JsonTypeDefinition.LeapSeconds
