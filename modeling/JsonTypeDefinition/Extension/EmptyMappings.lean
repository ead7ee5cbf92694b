import JsonTypeDefinition.Extension.Basic

/-!
# Without empty mappings

This extension refuses discriminator schemas whose mapping has no entry.
-/

namespace JsonTypeDefinition.EmptyMappings

def hook : Hook := fun members _ =>
  match members.get? "mapping" with
  | some (.object []) => { faults := [.mappingEmpty] }
  | _ => {}

/-- The extension that forbids empty mappings. -/
def extension : Extension where
  name := "disallow-empty-mappings"
  hooks := [(.discriminator, hook)]

end JsonTypeDefinition.EmptyMappings
