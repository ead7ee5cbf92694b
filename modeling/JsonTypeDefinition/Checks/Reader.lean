import JsonTypeDefinition.Extension.Basic

/-!
# Reading a checks object

A checks object is read key by key. Every key that a form understands is taken out, whether its
value is good or not, and the keys that remain at the end are reported.
-/

namespace JsonTypeDefinition.Checks

/-- A checks object that is being read. -/
structure Progress where
  /-- The members that were not taken, in document order. -/
  remaining : Members
  faults : List SchemaFault := []
  supplements : List Supplement := []

abbrev Reader := StateM Progress

namespace Reader

/-- Takes a key out and gives its value. -/
def take? (key : String) : Reader (Option Json) := do
  let progress ← get
  set { progress with remaining := progress.remaining.filter fun (k, _) => k != key }
  return Members.get? progress.remaining key

def report (faults : List SchemaFault) : Reader Unit :=
  modify fun progress => { progress with faults := progress.faults ++ faults }

def attach (supplement : Supplement) : Reader Unit :=
  modify fun progress => { progress with supplements := progress.supplements ++ [supplement] }

end Reader

def key : String := "x:checks"

def surplusFaults (remaining : Members) : List SchemaFault :=
  if remaining.isEmpty then [] else [.checksSurplus (Members.keys remaining)]

/-- What reading a whole checks object adds to its schema. -/
def Reader.contribution (reader : Reader Unit) (checks : Members) : Contribution :=
  let progress := (reader.run { remaining := checks }).2
  { faults := progress.faults ++ surplusFaults progress.remaining
    supplements := progress.supplements }

/-- The hook that reads the checks object of a schema, if there is one. -/
def hook (reader : Members → Reader Unit) : Hook := fun members _ =>
  match members.get? key with
  | none => {}
  | some (.object checks) => (reader members).contribution checks
  | some _ => { faults := [.checksNotObject] }

end JsonTypeDefinition.Checks
