import Classpath.Artifact
import Classpath.Document.Record

namespace Classpath

/-! # Artifacts and dependencies as documents

An artifact is a record of its coordinates and version, and a dependency is the same record with
three more fields. Nothing is checked beyond the types of the fields. -/

open Document (Field Format Read Shape asBoolean asText)

/-- The fields that artifacts and dependencies have in common. -/
def coordinateFields : List Field :=
  [.needed "group" asText, .needed "name" asText, .defaulted "classifier" asText,
   .defaulted "type" asText, .needed "version" asText]

def readCoordinates (fields : Document.Fields) : Read Artifact := do
  let group ← fields.need "group" asText
  let name ← fields.need "name" asText
  let classifier ← fields.getD "classifier" asText ""
  let packaging ← fields.getD "type" asText Key.defaultPackaging
  let version ← fields.need "version" asText
  return ⟨⟨group, name, classifier, packaging⟩, version⟩

namespace Artifact

def shape : Shape :=
  ⟨"ArtifactRecord", coordinateFields, false⟩

def ofDocument (format : Format) (d : Document) : Read Artifact := do
  readCoordinates (← shape.read format d)

def entries (a : Artifact) : List (String × Document) :=
  [("group", .text a.key.group), ("name", .text a.key.name),
   ("classifier", .text a.key.classifier), ("type", .text a.key.packaging),
   ("version", .text a.version)]

def toDocument (a : Artifact) : Document :=
  .table a.entries

end Artifact

namespace Dependency

def shape : Shape :=
  ⟨"DependencyRecord",
    coordinateFields ++
      [.defaulted "scope" asText, .defaulted "direct" asBoolean, .defaulted "optional" asBoolean],
    false⟩

def ofDocument (format : Format) (d : Document) : Read Dependency := do
  let fields ← shape.read format d
  let artifact ← readCoordinates fields
  let scope ← fields.getD "scope" asText defaultScope
  let direct ← fields.getD "direct" asBoolean false
  let isOptional ← fields.getD "optional" asBoolean false
  return ⟨artifact, scope, direct, isOptional⟩

def toDocument (d : Dependency) : Document :=
  .table (d.artifact.entries ++
    [("scope", .text d.scope), ("direct", .boolean d.direct),
     ("optional", .boolean d.isOptional)])

end Dependency

end Classpath
